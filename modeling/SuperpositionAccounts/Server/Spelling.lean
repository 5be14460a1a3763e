import SuperpositionAccounts.Server.MintPolicy
import SuperpositionAccounts.Server.Outbox

/-!
# How addresses are spelled in the database

An address has one text in lower case, and one in which the case of the letters is
a checksum. The tables of secrets and nonces get the first, and so does a
transaction that creates an account. The transactions of `NinelivesMint` and
`ClaimRewards` are recorded with the second, so the rows of one address differ
unless its checksum has no letter in upper case.
-/

namespace SuperpositionAccounts

namespace Go

open Threads

/-! ### Texts with a checksum -/

/-- Four bits at a time, from the high ones down. -/
def nibbles (bytes : List UInt8) : List ℕ :=
  bytes.flatMap fun byte => [byte.toNat / 16, byte.toNat % 16]

/-- A letter goes to upper case if its part of the hash is above 7. -/
def raise (digit : UInt8) (nibble : ℕ) : UInt8 :=
  if 57 < digit ∧ 7 < nibble then digit - 32 else digit

/-- Go-ethereum's `Address.String`, over its hash function. -/
def checksumText (keccak256 : List UInt8 → Bytes 32) (addr : Address) : String :=
  let digits := hexEncode addr.toList
  String.ofList ('0' :: 'x' ::
    ofAscii (List.zipWith raise digits (nibbles (keccak256 digits).toList)))

/-- No letter of the address goes to upper case. -/
def Unraised (keccak256 : List UInt8 → Bytes 32) (addr : Address) : Prop :=
  let digits := hexEncode addr.toList
  ∀ pair ∈ digits.zip (nibbles (keccak256 digits).toList), 57 < pair.1 → pair.2 ≤ 7

instance (keccak256 : List UInt8 → Bytes 32) (addr : Address) :
    Decidable (Unraised keccak256 addr) :=
  inferInstanceAs (Decidable (∀ pair ∈ (hexEncode addr.toList).zip
    (nibbles (keccak256 (hexEncode addr.toList)).toList), 57 < pair.1 → pair.2 ≤ 7))

theorem length_nibbles (bytes : List UInt8) : (nibbles bytes).length = 2 * bytes.length := by
  induction bytes with
  | nil => rfl
  | cons byte rest ih =>
      simp only [nibbles, List.flatMap_cons, List.length_append, List.length_cons,
        List.length_nil] at ih ⊢
      omega

theorem exists_of_mem_hexEncode {digit : UInt8} {bytes : List UInt8}
    (member : digit ∈ hexEncode bytes) : ∃ value < 16, digit = hexDigit value := by
  rcases List.mem_flatMap.mp member with ⟨byte, _, found⟩
  have bound := byte.toNat_lt
  rcases List.mem_pair.mp found with rfl | rfl
  · exact ⟨_, by omega, rfl⟩
  · exact ⟨_, by omega, rfl⟩

theorem raise_eq_iff {digit : UInt8} {nibble : ℕ} :
    raise digit nibble = digit ↔ (57 < digit → nibble ≤ 7) := by
  have moved : digit - 32 ≠ digit := by
    intro same
    have values := congrArg UInt8.toNat same
    have bound := digit.toNat_lt
    have width : (32 : UInt8).toNat = 32 := rfl
    rw [UInt8.toNat_sub] at values
    omega
  unfold raise
  split
  · rename_i raised
    exact iff_of_false moved fun low => absurd (low raised.1) (Nat.not_le.mpr raised.2)
  · rename_i kept
    refine iff_of_true rfl fun letter => ?_
    by_contra high
    exact kept ⟨letter, Nat.not_le.mp high⟩

/-- Lowering a digit undoes its raising. -/
theorem toLower_raise {value : ℕ} (small : value < 16) (nibble : ℕ) :
    (Char.ofNat (raise (hexDigit value) nibble).toNat).toLower =
      Char.ofNat (hexDigit value).toNat := by
  have each : ∀ value : Fin 16, (Char.ofNat (hexDigit value.val).toNat).toLower =
      Char.ofNat (hexDigit value.val).toNat ∧ (57 < hexDigit value.val →
        (Char.ofNat (hexDigit value.val - 32).toNat).toLower =
          Char.ofNat (hexDigit value.val).toNat) := by
    decide
  unfold raise
  split
  · rename_i raised
    exact (each ⟨value, small⟩).2 raised.1
  · exact (each ⟨value, small⟩).1

theorem zipWith_raise_eq_iff : ∀ {digits : List UInt8} {parts : List ℕ},
    digits.length ≤ parts.length → (List.zipWith raise digits parts = digits ↔
      ∀ pair ∈ digits.zip parts, 57 < pair.1 → pair.2 ≤ 7)
  | [], _, _ => by simp
  | digit :: digits, [], short => by simp at short
  | digit :: digits, part :: parts, short => by
      have rest := zipWith_raise_eq_iff (Nat.le_of_succ_le_succ short)
      simp only [List.zipWith_cons_cons, List.cons.injEq, raise_eq_iff, rest, List.zip_cons_cons,
        List.forall_mem_cons]

theorem map_toLower_zipWith : ∀ {digits : List UInt8} {parts : List ℕ},
    digits.length ≤ parts.length → (∀ digit ∈ digits, ∃ value < 16, digit = hexDigit value) →
      (ofAscii (List.zipWith raise digits parts)).map Char.toLower = ofAscii digits
  | [], _, _, _ => by simp [ofAscii]
  | digit :: digits, [], short, _ => by simp at short
  | digit :: digits, part :: parts, short, hexadecimal => by
      have rest := map_toLower_zipWith (Nat.le_of_succ_le_succ short)
        fun other member => hexadecimal other (List.mem_cons_of_mem _ member)
      rcases hexadecimal digit List.mem_cons_self with ⟨value, small, rfl⟩
      simp only [ofAscii, List.zipWith_cons_cons, List.map_cons, toLower_raise small] at rest ⊢
      rw [rest]

section Texts

variable (keccak256 : List UInt8 → Bytes 32) (addr : Address)

theorem length_digits_le : (hexEncode addr.toList).length ≤
    (nibbles (keccak256 (hexEncode addr.toList)).toList).length := by
  rw [length_hexEncode, length_nibbles, List.Vector.toList_length, List.Vector.toList_length]
  decide

/-- Lowering the text with the checksum gives the text in lower case. -/
theorem toLower_checksumText : toLower (checksumText keccak256 addr) = lowerAddr addr := by
  have lowered := map_toLower_zipWith (length_digits_le keccak256 addr)
    fun _ member => exists_of_mem_hexEncode member
  simp only [toLower, checksumText, lowerAddr, String.toList_ofList, List.map_cons, lowered]
  rfl

theorem ofAscii_injective : Function.Injective ofAscii :=
  fun _ _ same => asciiText_injective (congrArg String.ofList same)

theorem checksumText_eq_lowerAddr_iff :
    checksumText keccak256 addr = lowerAddr addr ↔ Unraised keccak256 addr := by
  rw [Unraised, ← zipWith_raise_eq_iff (length_digits_le keccak256 addr)]
  simp only [checksumText, lowerAddr, String.ofList_inj, List.cons.injEq, true_and]
  exact ofAscii_injective.eq_iff

theorem toLower_lowerAddr : toLower (lowerAddr addr) = lowerAddr addr := by
  -- a hash of zeros raises nothing
  have plain : checksumText (fun _ => Bytes.ofNat 32 0) addr = lowerAddr addr := by
    have small : ∀ part ∈ nibbles (Bytes.ofNat 32 0).toList, part ≤ 7 := by decide +kernel
    rw [checksumText_eq_lowerAddr_iff]
    exact fun pair member _ => small _ (List.of_mem_zip member).2
  rw [← plain, toLower_checksumText, plain]

/-- The text with the checksum is in lower case only if nothing is raised. -/
theorem exists_checksumText_eq_iff :
    (∃ other, checksumText keccak256 addr = lowerAddr other) ↔ Unraised keccak256 addr := by
  rw [← checksumText_eq_lowerAddr_iff]
  constructor
  · rintro ⟨other, same⟩
    have lowered := congrArg toLower same
    rw [toLower_checksumText, toLower_lowerAddr] at lowered
    rw [same, lowered]
  · exact fun same => ⟨addr, same⟩

end Texts

/-! ### Stored texts -/

/-- All addresses of the tables. -/
def Db.eoaAddrs (db : Db) : List String :=
  db.secrets.map SecretRow.eoaAddr ++ db.nonces.map NonceRow.eoaAddr ++
    db.executed.map ExecutedRow.eoaAddr

/-- Every address of the tables is in lower case. -/
def Lowered (state : State) : Prop :=
  ∀ text ∈ state.db.eoaAddrs, ∃ eoa, text = lowerAddr eoa

/-- The address that an operation inserts. -/
def Op.insertedAddr : Op → Option String
  | .insertSecret eoaAddr _ | .insertNonceSecret eoaAddr _ _ | .insertExecuted eoaAddr _ _ _ =>
    some eoaAddr
  | _ => none

theorem TableStep.mem_eoaAddrs {monthAfter : Timestamp → Timestamp} {before after : State}
    {op : Op} (step : TableStep monthAfter before after op) {text : String}
    (stored : text ∈ after.db.eoaAddrs) :
    text ∈ before.db.eoaAddrs ∨ op.insertedAddr = some text := by
  unfold Db.eoaAddrs at stored ⊢
  cases step with
  | kept secrets nonces executed =>
      rw [secrets, nonces, executed] at stored
      exact .inl stored
  | created secrets nonces executed =>
      rw [secrets, nonces, executed] at stored
      simp only [List.map_cons, List.cons_append, List.mem_cons] at stored
      rcases stored with rfl | old
      · exact .inr rfl
      · exact .inl old
  | requested fresh secrets nonces executed =>
      rw [secrets, nonces, executed] at stored
      simp only [List.map_cons, List.cons_append, List.mem_cons, List.mem_append] at stored ⊢
      rcases stored with rfl | ((old | rfl | old) | old)
      · exact .inr rfl
      · exact .inl (.inl (.inl old))
      · exact .inr rfl
      · exact .inl (.inl (.inr old))
      · exact .inl (.inr old)
  | tracked secrets nonces executed =>
      rw [secrets, nonces, executed] at stored
      simp only [List.map_cons, List.mem_cons, List.mem_append] at stored ⊢
      rcases stored with old | rfl | old
      · exact .inl (.inl old)
      · exact .inr rfl
      · exact .inl (.inr old)

/-- No record is deleted. -/
theorem TableStep.executed_subset {monthAfter : Timestamp → Timestamp} {before after : State}
    {op : Op} (step : TableStep monthAfter before after op) :
    before.db.executed ⊆ after.db.executed := by
  cases step with
  | kept _ _ executed => exact executed ▸ List.Subset.refl _
  | created _ _ executed => exact executed ▸ List.Subset.refl _
  | requested _ _ _ executed => exact executed ▸ List.Subset.refl _
  | tracked _ _ executed => exact executed ▸ List.subset_cons_self _ _

section Runs

variable {Asset : Type} [AssetRegistry Asset] [Inhabited Asset] {env : Env Asset} {r : Resolver}
  {monthAfter : Timestamp → Timestamp}

omit [Inhabited Asset] in
/-- A secret or a nonce is stored with an address in lower case. -/
theorem Request.Performs.insertedAddr {request : Request} {log : List (Entry operations)} {op : Op}
    (performs : request.Performs env r log op) {text : String}
    (inserts : op.insertedAddr = some text)
    (notTracked : ∀ hash gas desc, op ≠ .insertExecuted text hash gas desc) :
    ∃ eoa, text = lowerAddr eoa := by
  cases op with
  | insertSecret eoaAddr secret =>
      cases inserts
      rcases performs with harmless | ⟨_, _, _, _, eoa, same, _⟩
      · cases harmless
      · exact ⟨eoa, same⟩
  | insertNonceSecret eoaAddr secret nonce =>
      cases inserts
      rcases performs with harmless | ⟨_, _, _, _, eoa, same, _⟩
      · cases harmless
      · exact ⟨eoa, same⟩
  | insertExecuted eoaAddr transactionHash gasLimit desc =>
      cases inserts
      exact absurd rfl (notTracked _ _ _)
  | _ => cases inserts

theorem books_of_proper {event : ServerEvent monthAfter} {older : List (ServerEvent monthAfter)}
    (proper : event.Proper (serveHTTP env r) older) :
    event.job.Books env r event.past event.entry.op :=
  proper.good (does_serveHTTP_booked event.job)

/-- `trackTx` is given the address of a creation in lower case, and that of a mint or a claim, which
is the one of the header, with the checksum. -/
theorem tracked_text {event : ServerEvent monthAfter} {older : List (ServerEvent monthAfter)}
    (proper : event.Proper (serveHTTP env r) older) {text hash desc : String} {gas : UInt64}
    (tracks : event.entry.op = .insertExecuted text hash gas desc) :
    (∃ eoa, text = lowerAddr eoa ∧ desc = "create account") ∨
      ∃ eoa bearer, event.job.BearerOf eoa bearer ∧ text = env.addrString eoa ∧
        desc ≠ "create account" := by
  have books := books_of_proper proper
  have admits := proper.good (admits_serveHTTP event.job)
  rw [tracks] at books
  rcases books rfl with ⟨mutation, _, ctx, handled, signed, _, sends, _, _, recorded⟩
  have served {eoa : Address} (authed : ctx.authed = true) (named : ctx.eoa = some eoa) :
      ∃ bearer, event.job.BearerOf eoa bearer := by
    rcases admits ctx handled authed with ⟨other, bearer, same, header⟩
    cases named.symm.trans same
    exact ⟨bearer, header⟩
  cases mutation with
  | createAccountExec createAccount mint dryrun =>
      cases recorded
      exact .inl ⟨_, rfl, rfl⟩
  | requestSecret eoaAddr nonce sigV sigR sigS dryrun => cases recorded
  | ninelivesMint mint dryrun =>
      rcases sends with ⟨_, authed, eoa, _, named, _⟩
      rcases served authed named with ⟨bearer, header⟩
      rw [Mutation.recordOf, named] at recorded
      cases recorded
      exact .inr ⟨eoa, bearer, header, rfl, by decide⟩
  | claimRewards markets msTs dryrun =>
      rcases sends with ⟨_, authed, eoa, _, named, _⟩
      rcases served authed named with ⟨bearer, header⟩
      rw [Mutation.recordOf, named] at recorded
      cases recorded
      exact .inr ⟨eoa, bearer, header, rfl, by decide⟩

/-- The event puts a row into the table of executed transactions. -/
def Tracked (event : ServerEvent monthAfter) (text desc : String) : Prop :=
  ∃ hash gas, event.entry.op = .insertExecuted text hash gas desc ∧
    event.after.db.executed =
      ⟨event.before.clock, text, hash, gas, desc⟩ :: event.before.db.executed

/-- If the event records a mint or a claim, no letter of the address of the request goes to upper
case. -/
def RecordedPlainly (env : Env Asset) (event : ServerEvent monthAfter) : Prop :=
  ∀ text desc, Tracked event text desc → desc ≠ "create account" →
    ∀ eoa bearer, event.job.BearerOf eoa bearer → Unraised env.keccak256 eoa

theorem Lowered.step (spelled : env.addrString = checksumText env.keccak256)
    {event : ServerEvent monthAfter} {older : List (ServerEvent monthAfter)}
    (proper : event.Proper (serveHTTP env r) older) (plain : RecordedPlainly env event)
    (lowered : Lowered event.before) : Lowered event.after := by
  intro text stored
  have tables := tables_of_proper proper
  rcases tables.mem_eoaAddrs stored with old | inserts
  · exact lowered text old
  by_cases tracks : ∃ hash gas desc, event.entry.op = .insertExecuted text hash gas desc
  · rcases tracks with ⟨hash, gas, desc, tracks⟩
    rcases tracked_text proper tracks with ⟨eoa, low, _⟩ | ⟨eoa, bearer, header, spelling, spends⟩
    · exact ⟨eoa, low⟩
    · rw [tracks] at tables
      cases tables with
      | kept secrets nonces executed =>
          refine lowered text ?_
          rwa [Db.eoaAddrs, secrets, nonces, executed] at stored
      | tracked _ _ executed =>
          refine ⟨eoa, ?_⟩
          rw [spelling, spelled, checksumText_eq_lowerAddr_iff]
          exact plain text desc ⟨hash, gas, tracks, executed⟩ spends eoa bearer header
  · exact (performs_of_proper proper).insertedAddr inserts fun hash gas desc same =>
      tracks ⟨hash, gas, desc, same⟩

variable {allow : ServerConfig monthAfter → ℕ → Op → Prop} {config : ServerConfig monthAfter}

theorem lowered_of_recordedPlainly (spelled : env.addrString = checksumText env.keccak256)
    (reached : Reachable (serveHTTP env r) Lowered allow config)
    (plain : ∀ event ∈ config.history, RecordedPlainly env event) : Lowered config.state := by
  refine (reached.invariant (fun state history =>
    (∀ event ∈ history, RecordedPlainly env event) → Lowered state)
    (fun init _ => init) (fun _ kept => kept) ?_).1 plain
  intro event older proper kept plain
  exact .step spelled proper (plain event List.mem_cons_self)
    (kept fun earlier member => plain earlier (List.mem_cons_of_mem _ member))

/-- A text that was recorded stays in the table. -/
theorem tracked_stored (reached : Reachable (serveHTTP env r) Lowered allow config)
    {event : ServerEvent monthAfter} (recorded : event ∈ config.history) {text desc : String}
    (tracked : Tracked event text desc) : text ∈ config.state.db.eoaAddrs := by
  have kept : ∀ event ∈ config.history, event.after.db.executed ⊆ config.state.db.executed := by
    refine (reached.invariant (fun (state : State) (history : List (ServerEvent monthAfter)) =>
      ∀ event ∈ history, event.after.db.executed ⊆ state.db.executed)
      (fun _ => nofun) (fun _ kept => kept) ?_).1
    intro event older proper kept other member
    rcases List.mem_cons.mp member with rfl | earlier
    · exact List.Subset.refl _
    · exact List.Subset.trans (kept other earlier) (tables_of_proper proper).executed_subset
  rcases tracked with ⟨hash, gas, _, executed⟩
  have row := kept event recorded (executed ▸ List.mem_cons_self)
  exact List.mem_append_right _ (List.mem_map_of_mem row)

/-- A mint or a claim records an address in lower case exactly if no letter of it goes to upper
case. So all texts are in lower case in a run exactly if no letter of an address whose mints or
claims were recorded goes to upper case, and then there is one text for each address. -/
theorem one_spelling_iff (spelled : env.addrString = checksumText env.keccak256)
    (reached : Reachable (serveHTTP env r) Lowered allow config) :
    (∀ eoa, (∃ other, env.addrString eoa = lowerAddr other) ↔ Unraised env.keccak256 eoa) ∧
      ((∀ text ∈ config.state.db.eoaAddrs, ∃ eoa, text = lowerAddr eoa) ↔
        ∀ event ∈ config.history, RecordedPlainly env event) ∧
      ((∀ event ∈ config.history, RecordedPlainly env event) →
        ∀ text ∈ config.state.db.eoaAddrs, ∀ other ∈ config.state.db.eoaAddrs,
          hexToAddress text = hexToAddress other ↔ text = other) := by
  have lowered := lowered_of_recordedPlainly spelled reached
  have sharp (eoa : Address) :
      (∃ other, env.addrString eoa = lowerAddr other) ↔ Unraised env.keccak256 eoa :=
    spelled ▸ exists_checksumText_eq_iff _ eoa
  refine ⟨sharp, ⟨?_, lowered⟩, ?_⟩
  · intro stored event recorded text desc tracked spends eoa bearer header
    rcases exists_suffix_of_mem recorded with ⟨older, suffix, _⟩
    rcases tracked with ⟨hash, gas, tracks, executed⟩
    rcases tracked_text (reached.proper suffix) tracks with
      ⟨_, _, creation⟩ | ⟨other, spelling, named, rfl, _⟩
    · exact absurd creation spends
    · rcases header.unique named with ⟨rfl, _⟩
      exact (sharp eoa).mp (stored _ (tracked_stored reached recorded
        ⟨hash, gas, tracks, executed⟩))
  · intro plain text stored other otherStored
    rcases lowered plain text stored with ⟨eoa, rfl⟩
    rcases lowered plain other otherStored with ⟨otherEoa, rfl⟩
    rw [hexToAddress_lowerAddr, hexToAddress_lowerAddr]
    exact lowerAddr_injective.eq_iff.symm

end Runs

/-! ### Known answers: mints of 0x9d8A.. and of 0x1111.. -/

namespace Known

/-- What the libraries answer for a mint of one unit by an address. -/
structure MintAnswers where
  eoa : Address
  checksum : Bytes 32
  salt : Bytes 32
  clientHash : Bytes 32
  digest : Bytes 64
  signature : Bytes 64
  digestV2 : Bytes 64
  signatureV2 : Bytes 64
  txSignature : Bytes 65
  txHash : Bytes 32

namespace MintAnswers

variable (answers : MintAnswers)

/-- The encoding of the mint, with the address as the recipient. -/
def preimage : List UInt8 :=
  noncePreimage.toList.take 209 ++ answers.eoa.toList ++ noncePreimage.toList.drop 229

def preimageV2 : List UInt8 :=
  [1, 0, 0, 0] ++ answers.preimage ++ answers.eoa.toList ++ answers.eoa.toList

def keccak256 (preimage : List UInt8) : Bytes 32 :=
  if preimage = secretPreimage knownKey 7 then ownerDigest
  else if preimage = hexEncode answers.eoa.toList then answers.checksum
  else if preimage = answers.eoa.toList then answers.salt
  else if preimage.head? = some 0xff then answers.clientHash
  else Bytes.ofNat 32 0x406321671d0bfc06a9048b2b4db14717cffb0cd5c85eda2710301f55bc60a05d

def env : Env KnownAsset :=
  { mintEnv with
    keccak256 := answers.keccak256
    sum512 := fun preimage =>
      if preimage = answers.preimage then answers.digest
      else if preimage = answers.preimageV2 then answers.digestV2
      else Bytes.ofNat 64 0
    progDalek := fun text => .ok (
      if text = hexEncode answers.digest.toList then answers.signature.toList
      else if text = hexEncode answers.digestV2.toList then answers.signatureV2.toList
      else [])
    signTx := fun _ _ => .ok answers.txSignature
    txHash := fun _ => answers.txHash
    addrString := checksumText answers.keccak256 }

/-- The address mints with the secret of its row. -/
def minting : Request where
  method := "POST"
  authorization := lowerAddr answers.eoa ++ ":" ++ bearer
  mutations := [.ninelivesMint smallMint none]

end MintAnswers

def ownersMint : MintAnswers where
  eoa := owner
  checksum := Bytes.ofNat 32 0xb45c537f9919422cb9574c54c13ead5de84a0909ee5b0021c30ac1386cd857cd
  salt := Bytes.ofNat 32 0x97b57340ce9e8b67ec924a29f2310201901547a5aa1a7de69b1b112758e9f860
  clientHash := Bytes.ofNat 32 0x3613bfc35a292aee3f2804c23565a7aa26d4ba8ea1679e099dbbab92370c945f
  digest := Bytes.ofNat 64 0x1a90460d9802c8d3842486d49bc63cfc5ecd6b5df33025afeaf2a9ae5330d46e9a59d218e0eefa361024ec713e000cfc658c1e5abf0a251555e828af2c27e97a
  signature := Bytes.ofNat 64 0x52461f22494d2cd39df39eee08c9c747701124ebc8372d1ec62a96cc536bb32fd6584630c7e2e7f83760fdb3896ad74cb87445b8e094807b3804f02415a20f0c
  digestV2 := Bytes.ofNat 64 0x16ad094105df045a9264da5543aa85c737d162632d02970f0a9c3735fdbe571070d36a599fab3ea7fe84db88af375cc922fbdafbe7b7e5264c6db32840934260
  signatureV2 := Bytes.ofNat 64 0xfa12f7b2924e4b8ed9a1c020fc8ab5fe816f37b701074547ae96aa037c2324101753dc6d49e1f65e59edf3d4c56308727dafe7efbd029e1ea362c1a840b70e0d
  txSignature := Bytes.ofNat 65 0x24740aa5c5a052cd97d02d6bf355f962ff367ed80a6cebbeda9a4325ee06376a62e95f72efc378247babbcc4e8c046210072588a73e0a124f38e6580f082bb5101
  txHash := Bytes.ofNat 32 0x18e0448d198615a14fcaa400e68a71a53332f8d8151f8d7e04f9a9a6b9c506fd

/-- An address without letters. -/
def plainMint : MintAnswers where
  eoa := Bytes.ofNat 20 0x1111111111111111111111111111111111111111
  checksum := Bytes.ofNat 32 0x2d6ca42d0b5f46b311277710cd2dcf95bd59948e0957e7e167ebbf11ac592fc3
  salt := Bytes.ofNat 32 0xe2c07404b8c1df4c46226425cac68c28d27a766bbddce62309f36724839b22c0
  clientHash := Bytes.ofNat 32 0xac932e5a40ad618d31538805df5758b81037e2c78edf0946e0c896500c392ea2
  digest := Bytes.ofNat 64 0xa3e8972765e9ea2ac7e620e87be781f4f71f4eaacc968f1315d76ee91b435e87ca91bb798f1c8b344ff16029f30fadf4e2cd8d3882ba557c2a2a46872b881eaf
  signature := Bytes.ofNat 64 0x7a209151d9b1e7daf4e9ee66aaa4e9a5f212ef7488672502aa00a01d9b67ed0326c983853a61bb82f21ee79aa4471949f6a13327cb74236413b2b36d4caa3409
  digestV2 := Bytes.ofNat 64 0xef0814ee79d72ad3d1109f2497a2af4ca506c577369ba528f5c2220534b46905b615b6abb1bb67c8cba52df3ae2f0dad51e9de52f53fe9777639fbfbf2d95c64
  signatureV2 := Bytes.ofNat 64 0x15d74ce5179f81b2846e794eeede2b40a8a76e5468aad9314699e6d7033320310bc8702c90db6c8419e26e652847773e599a50122b4d6cd811d9d60b7e3db404
  txSignature := Bytes.ofNat 65 0x25faddab8432422743c00e2603a743897cddc679691fbb6d9ae75e9a443834af06ca31e18810ab82aff821f5a84a839eb916577023528f4de938576a47f3d93500
  txHash := Bytes.ofNat 32 0x0374bf1b256b4eacbcdca4ab7e23d85ae432d025019c2612467c43de1d7a0909

/-- The tables with one sender key and these secrets. -/
def withKey (secrets : List SecretRow) : State :=
  { migrated with db := { migrated.db with
      secrets, senderKeys := [⟨1, senderKeyText, none⟩] } }

/-- The request of this number mints, from its header to the record of the transaction. -/
def mintSteps (index : ℕ) : List (Label (world monthAfter) Request) :=
  [.perform index .plain, .perform index .plain, .perform index .plain, .perform index .plain,
    .perform index (.number 200000), .perform index (.number 100000000),
    .perform index (.number 1), .perform index .plain, .perform index .plain,
    .perform index .plain]

/-- The owner asks for a secret and mints with it. -/
def ownersRun : Option (ServerConfig monthAfter) :=
  Config.run (serveHTTP ownersMint.env resolver) ⟨withKey [], [], []⟩
    ([.arrive asking, .perform 0 .plain, .perform 0 (.random secret), .perform 0 .plain,
      .arrive ownersMint.minting] ++ mintSteps 1)

/-- The other address has a secret and mints with it. -/
def plainRun : Option (ServerConfig monthAfter) :=
  Config.run (serveHTTP plainMint.env resolver)
    ⟨withKey [⟨"0x1111111111111111111111111111111111111111", some (toLower bearer), 1702592000⟩],
      [], []⟩
    (.arrive plainMint.minting :: mintSteps 0)

theorem bearerOf_plainMint {request : Request}
    (header : request.authorization = plainMint.minting.authorization) :
    request.BearerOf plainMint.eoa bearer := by
  refine ⟨lowerAddr plainMint.eoa, ?_, by decide +kernel, hexToAddress_lowerAddr _, ?_⟩
  · rw [header]
    decide +kernel
  · exact ⟨List.replicate 32 0xab, by decide +kernel⟩

end Known

theorem one_spelling_known :
    ∃ config, Known.plainRun = some config ∧
      config.state.db.eoaAddrs = ["0x1111111111111111111111111111111111111111",
        "0x1111111111111111111111111111111111111111"] ∧
      (∀ text ∈ config.state.db.eoaAddrs, ∃ eoa, text = lowerAddr eoa) ∧
      ∀ text ∈ config.state.db.eoaAddrs, ∀ other ∈ config.state.db.eoaAddrs,
        hexToAddress text = hexToAddress other ↔ text = other := by
  have last : (Known.plainRun.map fun config =>
      (config.state.db.eoaAddrs, config.history.all fun event =>
        event.job.authorization = Known.plainMint.minting.authorization)) =
      some (["0x1111111111111111111111111111111111111111",
        "0x1111111111111111111111111111111111111111"], true) := by
    decide +kernel
  rcases Option.map_eq_some_iff.mp last with ⟨config, ran, observed⟩
  simp only [Prod.mk.injEq, List.all_eq_true, decide_eq_true_eq] at observed
  rcases observed with ⟨stored, headers⟩
  have start : Lowered (Known.withKey
      [⟨"0x1111111111111111111111111111111111111111", some (toLower Known.bearer), 1702592000⟩]) := by
    intro text found
    have only : text = "0x1111111111111111111111111111111111111111" := by
      simpa [Known.withKey, Known.migrated, Db.eoaAddrs] using found
    exact ⟨Known.plainMint.eoa, only.trans (by decide +kernel)⟩
  have plain : ∀ event ∈ config.history, RecordedPlainly Known.plainMint.env event := by
    intro event recorded text desc _ _ eoa bearer header
    rcases header.unique (Known.bearerOf_plainMint (headers event recorded)) with ⟨rfl, _⟩
    decide +kernel
  have reached := Reachable.run (.start start) ran
  have characterised := (one_spelling_iff rfl reached).2
  exact ⟨config, ran, stored, characterised.1.mpr plain, characterised.2 plain⟩

/-- One address is stored with two texts. -/
theorem owner_spelled_twice :
    (Known.ownersRun.map fun config => config.state.db.eoaAddrs) =
        some ["0x9d8a62f656a8d1615c1294fd71e9cfb3e4855a4f",
          "0x9d8a62f656a8d1615c1294fd71e9cfb3e4855a4f",
          "0x9d8A62f656a8d1615C1294fd71e9CFb3E4855A4F"] ∧
      hexToAddress "0x9d8a62f656a8d1615c1294fd71e9cfb3e4855a4f" =
        hexToAddress "0x9d8A62f656a8d1615C1294fd71e9CFb3E4855A4F" := by
  decide +kernel

end Go

end SuperpositionAccounts
