import KovaService.Api.Object
import KovaService.Lib.Text

/-!
Configuration of one service process, the pinned admission Genesis, and the lexical checks the
service makes on names, nonces, digests and UIDs.
-/

namespace KovaService.Api

structure Config where
  namespaceName : String := "kova"
  runnerImage : String := ""
  runnerImageDigest : String := ""
  runnerEnv : List (String × String) := []
  registryPlainHTTP : List String := []
  buildkitPlatformAddrs : List (String × String) := []
  workerPoolID : String := ""
  maxActiveJobs : Int := 1
  maxActiveJobsPerRequester : Int := 1
  workerSlots : Int := 1
  maxQueuedJobs : Int := 1
  maxQueuedJobsPerRequester : Int := 1
  maxBuildDuration : Duration := 0
  waitTimeout : Duration := 0
  pollRetryWindow : Duration := 0
  jobTTL : Duration := 0
  verificationWindow : Duration := 0
  deriving DecidableEq

/-- The original pair a Genesis guard was started with: `Guard.Original` together with the fields of
`Guard.Bootstrap.Receipt` that the runtime reads. -/
structure Genesis where
  namespaceUID : UID
  genesisName : String
  genesisUID : UID
  generation : String
  activeLedgerUID : UID
  queueLedgerUID : UID
  receiptNamespace : String
  receiptNamespaceUID : UID
  workerPoolID : String
  runnerImage : String
  deriving DecidableEq

def isLowerHexDigit (c : Char) : Bool :=
  ('0' ≤ c && c ≤ '9') || ('a' ≤ c && c ≤ 'f')

/-- `lowerHex` and `validLowerHex`: exactly `n` lower-case hex digits. -/
def lowerHex (value : String) (n : Nat) : Bool :=
  value.utf8ByteSize == n && value.toList.all isLowerHexDigit

/-- `validReservationHex`: lower case and decodable, hence an even number of digits. -/
def validReservationHex (value : String) (length : Nat) : Bool :=
  lowerHex value length && length % 2 == 0

def sha256Prefix : String := "sha256:"

/-- `validGrantReceiptDigest` and `digestSHA256`. -/
def digestSHA256 (value : String) : Bool :=
  value.toList.take 7 == sha256Prefix.toList && (value.toList.drop 7).length == 64 &&
    (value.toList.drop 7).all isLowerHexDigit

def isUIDChar (c : Char) : Bool :=
  ('0' ≤ c && c ≤ '9') || ('a' ≤ c && c ≤ 'z') || ('A' ≤ c && c ≤ 'Z') || c == '-'

/-- `validGrantReceiptUID` and `validReceiptUID`. -/
def validReceiptUID (value : String) : Bool :=
  value != "" && value.utf8ByteSize ≤ 64 && value.toList.all isUIDChar

def opaqueUID (value : String) : Bool :=
  value != "" && value.utf8ByteSize ≤ 256

def isControl (c : Char) : Bool :=
  c.toNat < 0x20 || (0x7F ≤ c.toNat && c.toNat ≤ 0x9F)

/-- `safeEffectID`; `validGrantObservedRV` is the instance with 256 bytes. -/
def safeEffectID (value : String) (max : Nat) : Bool :=
  value != "" && value.utf8ByteSize ≤ max &&
    value.toList.all fun c => !Lib.Text.isSpace c && !isControl c

def validGrantObservedRV (value : String) : Bool :=
  safeEffectID value 256

def isDNSLabelChar (c : Char) : Bool :=
  ('a' ≤ c && c ≤ 'z') || ('0' ≤ c && c ≤ '9') || c == '-'

def isDNSLabel (cs : List Char) : Bool :=
  cs != [] && cs.all isDNSLabelChar && cs.head? != some '-' && cs.getLast? != some '-'

def splitDots : List Char → List (List Char)
  | [] => [[]]
  | c :: cs =>
    if c == '.' then [] :: splitDots cs
    else
      match splitDots cs with
      | [] => [[c]]
      | l :: ls => (c :: l) :: ls

def isDNS1123Subdomain (value : String) : Bool :=
  value.utf8ByteSize ≤ 253 && (splitDots value.toList).all isDNSLabel

def isDNS1123Label (value : String) : Bool :=
  value.utf8ByteSize ≤ 63 && isDNSLabel value.toList

theorem mem_of_splitDots {p : Char → Prop} {cs : List Char} (h : ∀ l ∈ splitDots cs, ∀ c ∈ l, p c) :
    ∀ c ∈ cs, c = '.' ∨ p c := by
  induction cs with
  | nil => simp
  | cons c cs ih =>
    unfold splitDots at h
    split at h
    · next hdot =>
      have htail := ih fun l hl => h l (List.mem_cons_of_mem _ hl)
      exact List.forall_mem_cons.mpr ⟨.inl (by simpa using hdot), htail⟩
    · split at h
      · next hnil =>
        have htail := ih fun l hl => by rw [hnil] at hl; cases hl
        exact List.forall_mem_cons.mpr ⟨.inr (h _ List.mem_cons_self c List.mem_cons_self), htail⟩
      next l ls hcons =>
      have hfirst := h _ List.mem_cons_self
      have htail := ih fun l' hl' => by
        rw [hcons] at hl'
        rcases List.mem_cons.mp hl' with rfl | hl'
        · exact fun c' hc' => hfirst c' (List.mem_cons_of_mem _ hc')
        · exact h l' (List.mem_cons_of_mem _ hl')
      exact List.forall_mem_cons.mpr ⟨.inr (hfirst c List.mem_cons_self), htail⟩

theorem isDNSLabel_chars {cs : List Char} (h : isDNSLabel cs) : ∀ c ∈ cs, isDNSLabelChar c := by
  simp only [isDNSLabel, Bool.and_eq_true, List.all_eq_true] at h
  exact h.1.1.2

theorem isDNS1123Subdomain_chars {s : String} (h : isDNS1123Subdomain s) :
    ∀ c ∈ s.toList, c = '.' ∨ isDNSLabelChar c := by
  simp only [isDNS1123Subdomain, Bool.and_eq_true, List.all_eq_true] at h
  exact mem_of_splitDots fun l hl => isDNSLabel_chars (h.2 l hl)

/-- `truncate`: at most `limit` bytes, cut back to a rune boundary. -/
def truncate (value : String) (limit : Nat) : String :=
  if value.utf8ByteSize ≤ limit then value
  else String.ofList (go value.toList limit)
where
  go : List Char → Nat → List Char
    | [], _ => []
    | c :: cs, budget => if c.utf8Size ≤ budget then c :: go cs (budget - c.utf8Size) else []

def rvString (rv : Nat) : String :=
  if rv == 0 then "" else toString rv

end KovaService.Api
