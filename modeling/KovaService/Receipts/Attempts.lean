import KovaService.Controller.Results
import KovaService.Lib.Automaton
import KovaService.Lib.Contract

/-!
Attempts to collect and to verify the receipts of one build, at the grain of their effects on the
result list.

`VerifyReceipts` hands the chosen indices to at most four workers.  A worker takes an index, asks the
registry, and some time later writes what the reply says into that one result; the replies come in
any order.  The attempts themselves follow one another.
-/

namespace KovaService.Receipts

open Lib Api Ledger Controller

variable (answer : BuildFormat → Except Err Export) (results : List BuildVerificationResult)
variable (format : BuildFormat)

abbrev RegistryReply := Except Err (String × String)

/-- A receipt that `VerifyReceipts` may look up. -/
def needsCheck (v : BuildVerificationResult) : Bool :=
  v.state == .pending && v.pushedDigest != ""

def checkLimit (maxChecks : Int) : Nat := if maxChecks ≤ 0 then 16 else maxChecks.toNat

def checkIndices (maxChecks : Nat) : List Nat :=
  ((List.range results.length).filter fun i => (results[i]?).any needsCheck).take maxChecks

structure Lookup where
  index : Nat
  image : String
  digest : String
  deriving DecidableEq

/-- A call of `VerifyReceipts` between its first loop and its return. -/
structure Checking where
  jobs : List Nat
  workers : List (Option Lookup)
  transient : String := ""
  failed : Bool := false
  deriving DecidableEq

structure State where
  results : List BuildVerificationResult
  checking : Option Checking := none
  deriving DecidableEq

inductive Action where
  /-- `CollectReceipts`, with the answer of the runner for each format. -/
  | collect (answer : BuildFormat → Except Err Export)
  | verify (maxChecks : Int)
  | look (worker : Nat)
  | reply (worker : Nat) (answer : RegistryReply)
  | finish

inductive Outcome where
  | returned (transient : String) (failed : Bool)
  | none

/-- One format of `CollectReceipts`, on the results and the transient error so far. -/
def collectOf (acc : List BuildVerificationResult × String) :
    List BuildVerificationResult × String :=
  if acc.1.any (awaitsExport format) then
    (collectFormat format (answer format) acc.1,
      match answer format with
      | .error e => if e.is .exportTooLarge then acc.2 else "runner export unavailable"
      | .ok _ => acc.2)
  else acc

def collect :
    List BuildVerificationResult × String × Bool :=
  let (after, transient) := collectOf answer .nydus (collectOf answer .oci (results, ""))
  (after, transient, newlyFailed results after)

def retryable : RegistryReply → Bool
  | .error e => !e.is .registryDefinitive
  | .ok _ => false

def untransported : Except Err Export → Bool
  | .error e => !e.is .exportTooLarge
  | .ok _ => false

def settle (s : State) (c : Checking) (worker : Nat) (l : Lookup) (answer : RegistryReply) :
    State where
  results := s.results.modify l.index fun v => verifyOne v answer
  checking := some
    { c with
      workers := c.workers.set worker none
      transient := if retryable answer then "registry manifest verification unavailable"
        else c.transient
      failed := c.failed || (s.results[l.index]?).any fun v => (verifyOne v answer).state == .failed }

def attempts : Automaton State Action Outcome where
  init := { results }
  step s
    | .collect answer =>
      match s.checking with
      | none =>
        let (after, transient, failed) := collect answer s.results
        some ({ s with results := after }, .returned transient failed)
      | some _ => none
    | .verify maxChecks =>
      match s.checking with
      | none =>
        let indices := checkIndices s.results (checkLimit maxChecks)
        if indices == [] then some (s, .returned "" false)
        else
          let workers := List.replicate (min 4 indices.length) none
          some ({ s with checking := some { jobs := indices, workers } }, .none)
      | some _ => none
    | .look w =>
      match s.checking with
      | some c =>
        match c.workers[w]?, c.jobs with
        | some none, i :: rest =>
          match s.results[i]? with
          | some v =>
            let workers := c.workers.set w (some ⟨i, v.image, v.pushedDigest⟩)
            some ({ s with checking := some { c with jobs := rest, workers } }, .none)
          | none => none
        | _, _ => none
      | none => none
    | .reply w answer =>
      match s.checking with
      | some c =>
        match c.workers[w]? with
        | some (some l) => some (settle s c w l answer, .none)
        | _ => none
      | none => none
    | .finish =>
      match s.checking with
      | some c =>
        if c.jobs == [] && c.workers.all Option.isNone then
          some ({ s with checking := none }, .returned c.transient c.failed)
        else none
      | none => none

/-- What the call in progress knows about the results it will write. -/
structure Sound (results : List BuildVerificationResult) (c : Checking) : Prop where
  distinct : c.jobs.Nodup
  queued : ∀ i ∈ c.jobs, (results[i]?).any needsCheck
  looking : ∀ (w : Nat) (l : Lookup), c.workers[w]? = some (some l) →
    ∃ v, results[l.index]? = some v ∧ needsCheck v ∧ l.image = v.image ∧
      l.digest = v.pushedDigest
  apart : ∀ (w : Nat) (l : Lookup), c.workers[w]? = some (some l) → l.index ∉ c.jobs
  single : ∀ (w w' : Nat) (l l' : Lookup), c.workers[w]? = some (some l) →
    c.workers[w']? = some (some l') → l.index = l'.index → w = w'

variable {n : Nat} {i : Nat}

theorem mem_checkIndices {results : List BuildVerificationResult} (h : i ∈ checkIndices results n) :
    (results[i]?).any needsCheck :=
  (List.mem_filter.mp (List.mem_of_mem_take h)).2

theorem checkIndices_nodup (n : Nat) : (checkIndices results n).Nodup :=
  (List.nodup_range.filter _).sublist (List.take_sublist _ _)

theorem sound_start (n k : Nat) :
    Sound results { jobs := checkIndices results n, workers := List.replicate k none } := by
  have hnone : ∀ (w : Nat) (l : Lookup),
      (List.replicate k (none : Option Lookup))[w]? ≠ some (some l) := by
    intro w l h
    rw [List.getElem?_replicate] at h
    split at h <;> cases h
  exact
    { distinct := checkIndices_nodup results n
      queued := fun i hi => mem_checkIndices hi
      looking := fun w l h => absurd h (hnone w l)
      apart := fun w l h => absurd h (hnone w l)
      single := fun w _ l _ h => absurd h (hnone w l) }

variable {v : BuildVerificationResult}

theorem Sound.look {results : List BuildVerificationResult} {c : Checking} {rest : List Nat}
    (h : Sound results c) (hj : c.jobs = i :: rest)
    (hv : results[i]? = some v) (w : Nat) :
    Sound results
      { c with
        jobs := rest
        workers := c.workers.set w (some ⟨i, v.image, v.pushedDigest⟩) } := by
  obtain ⟨hdistinct, hqueued, hlooking, hapart, hsingle⟩ := h
  rw [hj] at hdistinct hqueued hapart
  obtain ⟨hi, hrest⟩ := List.nodup_cons.mp hdistinct
  -- A worker of the new call is the one that took the index, or one of the old call.
  have hold : ∀ w' l, (c.workers.set w (some ⟨i, v.image, v.pushedDigest⟩))[w']? = some (some l) →
      (w' = w ∧ l = ⟨i, v.image, v.pushedDigest⟩) ∨ c.workers[w']? = some (some l) := by
    intro w' l hl
    rw [List.getElem?_set] at hl
    grind
  constructor
  · exact hrest
  · exact fun j hj => hqueued j (List.mem_cons_of_mem i hj)
  · intro w' l hl
    rcases hold w' l hl with ⟨-, rfl⟩ | hl
    · have hq := hqueued i List.mem_cons_self
      rw [hv] at hq
      exact ⟨v, hv, hq, rfl, rfl⟩
    · exact hlooking w' l hl
  · intro w' l hl
    rcases hold w' l hl with ⟨-, rfl⟩ | hl
    · exact hi
    · exact fun hmem => hapart w' l hl (List.mem_cons_of_mem i hmem)
  · intro w₁ w₂ l₁ l₂ h₁ h₂ he
    rcases hold w₁ l₁ h₁ with ⟨rfl, rfl⟩ | h₁'
    · rcases hold w₂ l₂ h₂ with ⟨rfl, -⟩ | h₂'
      · rfl
      · exact absurd (he ▸ List.mem_cons_self) (hapart w₂ l₂ h₂')
    · rcases hold w₂ l₂ h₂ with ⟨rfl, rfl⟩ | h₂'
      · exact absurd (he ▸ List.mem_cons_self) (hapart w₁ l₁ h₁')
      · exact hsingle w₁ w₂ l₁ l₂ h₁' h₂' he

theorem Sound.settle {s : State} {c : Checking} {w : Nat} {l : Lookup} (h : Sound s.results c)
    (hl : c.workers[w]? = some (some l)) (answer : RegistryReply) {c' : Checking}
    (hc : (settle s c w l answer).checking = some c') :
    Sound (settle s c w l answer).results c' := by
  obtain ⟨hdistinct, hqueued, hlooking, hapart, hsingle⟩ := h
  cases hc
  have hold : ∀ w' l', (c.workers.set w none)[w']? = some (some l') →
      w' ≠ w ∧ c.workers[w']? = some (some l') := by
    intro w' l' hl'
    rw [List.getElem?_set] at hl'
    grind
  have hother : ∀ j, j ≠ l.index →
      (s.results.modify l.index fun v => verifyOne v answer)[j]? = s.results[j]? := by
    intro j hj
    rw [List.getElem?_modify]
    simp [Ne.symm hj]
  constructor
  · exact hdistinct
  · intro j hj
    have hne : j ≠ l.index := fun he => hapart w l hl (he ▸ hj)
    simp only [Receipts.settle, hother j hne]
    exact hqueued j hj
  · intro w' l' hl'
    obtain ⟨hw, hl'⟩ := hold w' l' hl'
    have hne : l'.index ≠ l.index := fun he => hw (hsingle w' w l' l hl' hl he)
    simp only [Receipts.settle, hother _ hne]
    exact hlooking w' l' hl'
  · intro w' l' hl'
    exact hapart w' l' (hold w' l' hl').2
  · intro w₁ w₂ l₁ l₂ h₁ h₂ he
    exact hsingle w₁ w₂ l₁ l₂ (hold w₁ l₁ h₁).2 (hold w₂ l₂ h₂).2 he

def Asking (s : State) (w i : Nat) (v : BuildVerificationResult) : Prop :=
  ∃ c, s.checking = some c ∧ c.workers[w]? = some (some ⟨i, v.image, v.pushedDigest⟩)

/-- What may become of a result in a step. -/
inductive Fate (s : State) (a : Action) (i : Nat) (v : BuildVerificationResult) :
    BuildVerificationResult → Prop
  | kept : Fate s a i v v
  /-- The runner's export reports a digest for exactly this image. -/
  | pushed {answer : BuildFormat → Except Err Export} {entries : List ExportEntry}
      {entry : ExportEntry} (call : a = .collect answer) (waiting : awaitsExport v.format v)
      (export? : answer v.format = .ok (some entries))
      (found : entries.find? (fun e => e.target == v.image) = some entry)
      (success : entry.success) (digest : digestSHA256 entry.manifestDigest) :
      Fate s a i v { v with pushedDigest := entry.manifestDigest }
  /-- The runner's export arrived and does not hold what it should. -/
  | missing {answer : BuildFormat → Except Err Export} {error : String}
      (call : a = .collect answer) (waiting : awaitsExport v.format v)
      (arrived : untransported (answer v.format) = false) : Fate s a i v (failResult v error)
  /-- The registry confirms the receipt. -/
  | confirmed {w : Nat} (call : a = .reply w (.ok (v.pushedDigest, v.platform)))
      (waiting : needsCheck v) (asking : Asking s w i v) :
      Fate s a i v { v with state := .succeeded, error := "" }
  /-- The registry refutes the receipt. -/
  | refuted {w : Nat} {answer : RegistryReply} {error : String} (call : a = .reply w answer)
      (waiting : needsCheck v) (asking : Asking s w i v) (final : retryable answer = false) :
      Fate s a i v (failResult v error)

def collectOne (answer : Except Err Export) (v : BuildVerificationResult) :
    BuildVerificationResult :=
  if !awaitsExport format v then v
  else
    match answer with
    | .error e =>
      if e.is .exportTooLarge then failResult v "runner export exceeded its bounded response size"
      else v
    | .ok none => failResult v "invalid runner export"
    | .ok (some entries) => collectEntry entries v

theorem collectOf_results (acc : List BuildVerificationResult × String) :
    (collectOf answer format acc).1 = acc.1.map (collectOne format (answer format)) := by
  unfold collectOf
  split
  · rfl
  next h =>
  -- nothing awaits this format, so the map changes nothing
  have hid : ∀ v ∈ acc.1, collectOne format (answer format) v = id v := by
    intro v hv
    have hn : awaitsExport format v = false := by
      by_contra hw
      exact h (List.any_eq_true.mpr ⟨v, hv, by simpa using hw⟩)
    simp [collectOne, hn]
  rw [List.map_congr_left hid, List.map_id]

theorem collect_results :
    (collect answer results).1 = results.map fun v =>
      collectOne .nydus (answer .nydus) (collectOne .oci (answer .oci) v) := by
  simp only [collect, collectOf_results, List.map_map]
  rfl

theorem collectOne_other {format : BuildFormat} (h : v.format ≠ format)
    (answer : Except Err Export) : collectOne format answer v = v := by
  simp [collectOne, awaitsExport, h]

theorem collectOne_format (answer : Except Err Export) (v : BuildVerificationResult) :
    (collectOne format answer v).format = v.format := by
  unfold collectOne collectEntry failResult
  grind

variable {s : State} {i : Nat} {v : BuildVerificationResult}

theorem collectEntry_fate {answer : BuildFormat → Except Err Export} {entries : List ExportEntry}
    (hw : awaitsExport v.format v) (he : answer v.format = .ok (some entries)) :
    Fate s (.collect answer) i v (collectEntry entries v) := by
  have harrived : untransported (answer v.format) = false := by
    rw [he]
    rfl
  unfold collectEntry
  split
  · exact .missing rfl hw harrived
  next entry hfound =>
  split
  · exact .missing rfl hw harrived
  · next hsuccess =>
    split
    · exact .missing rfl hw harrived
    · next hhash =>
      exact .pushed rfl hw he hfound (by simpa using hsuccess) (by simpa using hhash)

theorem collectOne_fate :
    Fate s (.collect answer) i v (collectOne v.format (answer v.format) v) := by
  unfold collectOne
  split
  · exact .kept
  next hw =>
  simp only [Bool.not_eq_true', Bool.not_eq_false] at hw
  split
  · next e he =>
    split
    · next hlarge => exact .missing rfl hw (by simp [untransported, he, hlarge])
    · exact .kept
  · next he => exact .missing rfl hw (by simp [untransported, he])
  · next entries he => exact collectEntry_fate hw he

theorem collect_fate :
    Fate s (.collect answer) i v
      (collectOne .nydus (answer .nydus) (collectOne .oci (answer .oci) v)) := by
  cases hf : v.format with
  | oci =>
    rw [collectOne_other (by rw [collectOne_format, hf]; decide)]
    have hfate : Fate s (.collect answer) i v (collectOne v.format (answer v.format) v) :=
      collectOne_fate answer
    rwa [hf] at hfate
  | nydus =>
    have hother : v.format ≠ .oci := by
      rw [hf]
      decide
    rw [collectOne_other hother]
    have hfate : Fate s (.collect answer) i v (collectOne v.format (answer v.format) v) :=
      collectOne_fate answer
    rwa [hf] at hfate

theorem verifyOne_fate {w : Nat} (hn : needsCheck v) (ha : Asking s w i v)
    (answer : RegistryReply) : Fate s (.reply w answer) i v (verifyOne v answer) := by
  unfold verifyOne
  split
  · next e =>
    split
    · next hd => exact .refuted rfl hn ha (by simp [retryable, hd])
    · exact .kept
  next digest platform =>
  split
  · exact .refuted rfl hn ha rfl
  · next hsame =>
    simp only [Bool.or_eq_true, bne_iff_ne, ne_eq, not_or, Decidable.not_not] at hsame
    obtain ⟨rfl, rfl⟩ := hsame
    exact .confirmed rfl hn ha

def State.Sound (s : State) : Prop := ∀ c, s.checking = some c → Receipts.Sound s.results c

theorem step_fate {results : List BuildVerificationResult} {s s' : State} {a : Action} {b : Outcome}
    (hs : s.Sound) (h : (attempts results).step s a = some (s', b)) :
    s'.Sound ∧ s'.results.length = s.results.length ∧
      ∀ i v, s.results[i]? = some v → ∃ v', s'.results[i]? = some v' ∧ Fate s a i v v' := by
  cases a with
  | collect answer =>
    simp only [attempts] at h
    split at h
    · next hc =>
      cases h
      refine ⟨fun c hc' => ?_, by simp [collect_results], ?_⟩
      · rw [hc] at hc'
        cases hc'
      · intro i v hv
        refine ⟨_, ?_, collect_fate answer⟩
        simp [collect_results, hv]
    · cases h
  | verify maxChecks =>
    simp only [attempts] at h
    split at h
    · next hc =>
      split at h
      · cases h
        exact ⟨hs, rfl, fun i v hv => ⟨v, hv, .kept⟩⟩
      · cases h
        refine ⟨fun c hc' => ?_, rfl, fun i v hv => ⟨v, hv, .kept⟩⟩
        cases hc'
        exact sound_start s.results _ _
    · cases h
  | look w =>
    simp only [attempts] at h
    split at h
    · next c hc =>
      split at h
      · next i rest hw hj =>
        split at h
        · next v hv =>
          cases h
          refine ⟨fun c' hc' => ?_, rfl, fun i v hv => ⟨v, hv, .kept⟩⟩
          cases hc'
          exact (hs c hc).look hj hv w
        · cases h
      · cases h
    · cases h
  | reply w answer =>
    simp only [attempts] at h
    split at h
    · next c hc =>
      split at h
      · next l hl =>
        cases h
        refine ⟨fun c' hc' => (hs c hc).settle hl answer hc', by simp [settle], ?_⟩
        intro i v hv
        by_cases hi : l.index = i
        · obtain ⟨v', hv', hneeds, himage, hdigest⟩ := (hs c hc).looking w l hl
          rw [hi, hv] at hv'
          cases hv'
          refine ⟨verifyOne v answer, by simp [settle, hi, hv], ?_⟩
          refine verifyOne_fate hneeds ⟨c, hc, ?_⟩ answer
          rw [← himage, ← hdigest, ← hi]
          exact hl
        · exact ⟨v, by simp [settle, hi, hv], .kept⟩
      · cases h
    · cases h
  | finish =>
    simp only [attempts] at h
    split at h
    · split at h
      · cases h
        refine ⟨fun c hc => ?_, rfl, fun i v hv => ⟨v, hv, .kept⟩⟩
        cases hc
      · cases h
    · cases h

structure Evolves (v v' : BuildVerificationResult) : Prop where
  format : v'.format = v.format
  image : v'.image = v.image
  platform : v'.platform = v.platform
  state : v.state ≠ .pending → v'.state = v.state
  digest : v.pushedDigest ≠ "" → v'.pushedDigest = v.pushedDigest

theorem Evolves.refl (v : BuildVerificationResult) : Evolves v v :=
  ⟨rfl, rfl, rfl, fun _ => rfl, fun _ => rfl⟩

variable {v' : BuildVerificationResult}

theorem Evolves.trans {v'' : BuildVerificationResult} (h : Evolves v v') (h' : Evolves v' v'') :
    Evolves v v'' where
  format := h'.format.trans h.format
  image := h'.image.trans h.image
  platform := h'.platform.trans h.platform
  state hs := (h'.state (h.state hs ▸ hs)).trans (h.state hs)
  digest hd := (h'.digest (h.digest hd ▸ hd)).trans (h.digest hd)

theorem Fate.evolves {a : Action} (h : Fate s a i v v') : Evolves v v' := by
  cases h with
  | kept => exact .refl v
  | pushed _ waiting =>
    simp only [awaitsExport, Bool.and_eq_true, beq_iff_eq] at waiting
    exact ⟨rfl, rfl, rfl, fun _ => rfl, fun hd => absurd waiting.2 hd⟩
  | missing _ waiting =>
    simp only [awaitsExport, Bool.and_eq_true, beq_iff_eq] at waiting
    exact ⟨rfl, rfl, rfl, fun hs => absurd waiting.1.2 hs, fun _ => rfl⟩
  | confirmed _ waiting =>
    simp only [needsCheck, Bool.and_eq_true, beq_iff_eq] at waiting
    exact ⟨rfl, rfl, rfl, fun hs => absurd waiting.1 hs, fun _ => rfl⟩
  | refuted _ waiting =>
    simp only [needsCheck, Bool.and_eq_true, beq_iff_eq] at waiting
    exact ⟨rfl, rfl, rfl, fun hs => absurd waiting.1 hs, fun _ => rfl⟩

section Runs

variable {results : List BuildVerificationResult} (r : (attempts results).Run)

theorem run_sound (n : Nat) : (r.state n).Sound := by
  refine r.invariant (P := State.Sound) ?_ ?_ n
  · intro c hc
    cases hc
  · intro s a s' b hs hstep
    exact (step_fate hs hstep).1

theorem run_length (n : Nat) : (r.state n).results.length = results.length := by
  induction n with
  | zero => rw [r.zero]; rfl
  | succ n ih => exact (step_fate (run_sound r n) (r.step n)).2.1.trans ih

theorem run_fate (h : (r.state (n + 1)).results[i]? = some v') :
    ∃ v, (r.state n).results[i]? = some v ∧ Fate (r.state n) (r.action n) i v v' := by
  obtain ⟨-, hlen, hfate⟩ := step_fate (run_sound r n) (r.step n)
  have hi : i < (r.state n).results.length := hlen ▸ (List.getElem?_eq_some_iff.mp h).1
  obtain ⟨v'', hv'', hf⟩ := hfate i _ (List.getElem?_eq_getElem hi)
  rw [h] at hv''
  cases hv''
  exact ⟨_, List.getElem?_eq_getElem hi, hf⟩

theorem run_evolves {m : Nat} (hmn : m ≤ n) (h : (r.state m).results[i]? = some v)
    (h' : (r.state n).results[i]? = some v') :
    Evolves v v' := by
  induction n, hmn using Nat.le_induction generalizing v' with
  | base =>
    rw [h] at h'
    cases h'
    exact .refl v
  | succ n hmn ih =>
    obtain ⟨u, hu, hf⟩ := run_fate r h'
    exact (ih hu).trans hf.evolves

theorem earlier_succ {P : Nat → Prop} : (∃ k < n, P k) → ∃ k < n + 1, P k :=
  fun ⟨k, hk, h⟩ => ⟨k, Nat.lt_succ_of_lt hk, h⟩

/-- The runner reported this result's digest for its image at instant `k`. -/
def Reported (v : BuildVerificationResult) (k : Nat) : Prop :=
  ∃ answer entries entry, r.action k = .collect answer ∧ answer v.format = .ok (some entries) ∧
    entries.find? (fun e => e.target == v.image) = some entry ∧ entry.success ∧
    entry.manifestDigest = v.pushedDigest

/-- A digest that was not there from the start was reported for this image. -/
theorem digest_reported (h : (r.state n).results[i]? = some v) (hd : v.pushedDigest ≠ "") :
    (∃ v₀, results[i]? = some v₀ ∧ v₀.pushedDigest = v.pushedDigest) ∨
      digestSHA256 v.pushedDigest ∧ ∃ k < n, Reported r v k := by
  induction n generalizing v with
  | zero =>
    rw [r.zero] at h
    exact .inl ⟨v, h, rfl⟩
  | succ n ih =>
    obtain ⟨u, hu, hf⟩ := run_fate r h
    cases hf with
    | kept => exact (ih hu hd).imp id (And.imp id earlier_succ)
    | @pushed answer entries entry call waiting export? found success digest =>
      exact .inr ⟨digest, n, Nat.lt_succ_self n, answer, entries, entry, call, export?, found,
        success, rfl⟩
    | missing call waiting =>
      simp only [awaitsExport, Bool.and_eq_true, beq_iff_eq] at waiting
      exact absurd waiting.2 hd
    | confirmed => exact (ih hu hd).imp id (And.imp id earlier_succ)
    | refuted => exact (ih hu hd).imp id (And.imp id earlier_succ)

/-- A success that was not there from the start was confirmed by a lookup. -/
theorem success_confirmed (h : (r.state n).results[i]? = some v) (hs : v.state = .succeeded) :
    (∃ v₀, results[i]? = some v₀ ∧ v₀.state = .succeeded) ∨
      v.pushedDigest ≠ "" ∧ ∃ k < n, ∃ w,
        r.action k = .reply w (.ok (v.pushedDigest, v.platform)) ∧ Asking (r.state k) w i v := by
  induction n generalizing v with
  | zero =>
    rw [r.zero] at h
    exact .inl ⟨v, h, hs⟩
  | succ n ih =>
    obtain ⟨u, hu, hf⟩ := run_fate r h
    cases hf with
    | kept => exact (ih hu hs).imp id (And.imp id earlier_succ)
    | pushed call waiting =>
      simp only [awaitsExport, Bool.and_eq_true, beq_iff_eq] at waiting
      rw [waiting.1.2] at hs
      cases hs
    | missing => cases hs
    | @confirmed w call waiting asking =>
      simp only [needsCheck, Bool.and_eq_true, bne_iff_ne] at waiting
      exact .inr ⟨waiting.2, n, Nat.lt_succ_self n, w, call, asking⟩
    | refuted => cases hs

/-- A result fails in a step only for a final cause. -/
theorem failure_final (h : (r.state n).results[i]? = some v)
    (h' : (r.state (n + 1)).results[i]? = some v')
    (hs : v.state ≠ .failed) (hs' : v'.state = .failed) :
    (∃ answer, r.action n = .collect answer ∧ untransported (answer v.format) = false) ∨
      ∃ w answer, r.action n = .reply w answer ∧ retryable answer = false ∧
        Asking (r.state n) w i v := by
  obtain ⟨u, hu, hf⟩ := run_fate r h'
  rw [h] at hu
  cases hu
  cases hf with
  | kept => exact absurd hs' hs
  | pushed => exact absurd hs' hs
  | @missing answer error call waiting arrived => exact .inl ⟨answer, call, arrived⟩
  | confirmed => cases hs'
  | @refuted w answer error call waiting asking final =>
    exact .inr ⟨w, answer, call, final, asking⟩

/-- The results of a build evolve monotonically, whatever the runner and the registry answer. -/
theorem receipts_evolve (results : List BuildVerificationResult) (r : (attempts results).Run) :
    (∀ m n, m ≤ n → (r.state n).results.length = (r.state m).results.length ∧
      ∀ (i : Nat) v v', (r.state m).results[i]? = some v → (r.state n).results[i]? = some v' →
        Evolves v v') ∧
    (∀ (n i : Nat) v, (r.state n).results[i]? = some v →
      (v.pushedDigest ≠ "" → (∃ v₀, results[i]? = some v₀ ∧ v₀.pushedDigest = v.pushedDigest) ∨
        digestSHA256 v.pushedDigest ∧ ∃ k < n, Reported r v k) ∧
      (v.state = .succeeded → (∃ v₀, results[i]? = some v₀ ∧ v₀.state = .succeeded) ∨
        v.pushedDigest ≠ "" ∧ ∃ k < n, ∃ w,
          r.action k = .reply w (.ok (v.pushedDigest, v.platform)) ∧ Asking (r.state k) w i v) ∧
      ∀ v', (r.state (n + 1)).results[i]? = some v' → v.state ≠ .failed → v'.state = .failed →
        (∃ answer, r.action n = .collect answer ∧ untransported (answer v.format) = false) ∨
          ∃ w answer, r.action n = .reply w answer ∧ retryable answer = false ∧
            Asking (r.state n) w i v) := by
  refine ⟨?_, ?_⟩
  · intro m n hmn
    refine ⟨(run_length r n).trans (run_length r m).symm, ?_⟩
    intro i v v' h h'
    exact run_evolves r hmn h h'
  · intro n i v h
    refine ⟨digest_reported r h, success_confirmed r h, ?_⟩
    intro v' h' hs hs'
    exact failure_final r h h' hs hs'

end Runs

end KovaService.Receipts
