import KovaService.Receipts.Attempts

/-!
Which receipts a sequence of `VerifyReceipts` attempts looks up.

Every attempt starts again at the front of the list.  A receipt whose lookup fails transiently stays
pending and keeps its place, and so the receipts behind a full batch of such ones wait for ever.
-/

namespace KovaService.Receipts

open Lib Api Ledger Controller

variable {answers : List (Nat → RegistryReply)}

def pendingIndices (results : List BuildVerificationResult) : List Nat :=
  (List.range results.length).filter fun i => (results[i]?).any needsCheck

/-- An attempt of `VerifyReceipts`, as a function of the registry's replies. -/
def attempt (b : Nat) (answer : Nat → RegistryReply) (results : List BuildVerificationResult) :
    List BuildVerificationResult :=
  results.mapIdx fun i v => if i ∈ checkIndices results b then verifyOne v (answer i) else v

def afterAttempts (b : Nat) : List (Nat → RegistryReply) → List BuildVerificationResult →
    List BuildVerificationResult
  | [], results => results
  | answer :: rest, results => afterAttempts b rest (attempt b answer results)

def lookedUp (b : Nat) : List (Nat → RegistryReply) → List BuildVerificationResult → List Nat
  | [], _ => []
  | answer :: rest, results =>
    checkIndices results b ++ lookedUp b rest (attempt b answer results)

def Action.works : Action → Bool
  | .look _ | .reply _ _ => true
  | _ => false

/-- The index that a reply of the registry is for, with the reply. -/
def State.replied (s : State) : Action → Option (Nat × RegistryReply)
  | .reply w a => s.checking.bind fun c => (c.workers[w]?).join.map fun l => (l.index, a)
  | _ => none

/-- The replies of the registry along a run. -/
def replies (results : List BuildVerificationResult) : State → List Action →
    List (Nat × RegistryReply)
  | _, [] => []
  | s, a :: as => (s.replied a).toList ++
      (((attempts results).step s a).map fun p => replies results p.1 as).getD []

def Checking.Looks (c : Checking) (i : Nat) : Prop :=
  ∃ (w : Nat) (l : Lookup), c.workers[w]? = some (some l) ∧ l.index = i

structure Halfway (results : List BuildVerificationResult) (indices : List Nat)
    (now : List BuildVerificationResult) (c : Checking) (rs : List (Nat × RegistryReply))
    (answer : Nat → RegistryReply) : Prop where
  sound : Sound now c
  agree : ∀ p ∈ rs, answer p.1 = p.2
  once : (rs.map Prod.fst).Nodup
  written : now = results.mapIdx fun i v =>
    if i ∈ rs.map Prod.fst then verifyOne v (answer i) else v
  split : ∀ i, i ∈ indices ↔ i ∈ rs.map Prod.fst ∨ i ∈ c.jobs ∨ c.Looks i
  fresh : ∀ i ∈ rs.map Prod.fst, i ∉ c.jobs ∧ ¬ c.Looks i

variable {results : List BuildVerificationResult} {indices : List Nat} {s : State}
  {c : Checking} {rs : List (Nat × RegistryReply)} {answer : Nat → RegistryReply} {w : Nat}
  {v : BuildVerificationResult}

theorem halfway_look {i : Nat} {rest : List Nat} (h : Halfway results indices s.results c rs answer)
    (hw : c.workers[w]? = some none)
    (hj : c.jobs = i :: rest) (hv : s.results[i]? = some v) :
    Halfway results indices s.results
      { c with
        jobs := rest
        workers := c.workers.set w (some ⟨i, v.image, v.pushedDigest⟩) } rs answer := by
  obtain ⟨hlt, hnone⟩ := List.getElem?_eq_some_iff.mp hw
  have hlooks : ∀ j, Checking.Looks
      { c with
        jobs := rest
        workers := c.workers.set w (some ⟨i, v.image, v.pushedDigest⟩) } j ↔
      j = i ∨ c.Looks j := by
    intro j
    constructor
    · rintro ⟨w', l, hl, rfl⟩
      simp only [List.getElem?_set] at hl
      split at hl
      · cases hl
        exact .inl rfl
      · exact .inr ⟨w', l, hl, rfl⟩
    · rintro (rfl | ⟨w', l, hl, rfl⟩)
      · exact ⟨w, _, List.getElem?_set_self hlt, rfl⟩
      · have hne : w ≠ w' := by
          rintro rfl
          rw [hw] at hl
          cases hl
        exact ⟨w', l, by simpa only [List.getElem?_set_ne hne] using hl, rfl⟩
  refine ⟨h.sound.look hj hv w, h.agree, h.once, h.written, ?_, ?_⟩
  · intro j
    rw [h.split j, hlooks j, hj, List.mem_cons]
    tauto
  · intro j hdone
    obtain ⟨hjobs, hother⟩ := h.fresh j hdone
    rw [hj, List.mem_cons, not_or] at hjobs
    refine ⟨hjobs.2, ?_⟩
    rw [hlooks j]
    tauto

theorem halfway_reply {l : Lookup} {a : RegistryReply} {c' : Checking}
    (h : Halfway results indices s.results c rs answer) (hl : c.workers[w]? = some (some l))
    (hc : (settle s c w l a).checking = some c') :
    Halfway results indices (settle s c w l a).results c' (rs ++ [(l.index, a)])
      (Function.update answer l.index a) := by
  have hsound := h.sound.settle hl a hc
  cases hc
  have hndone : l.index ∉ rs.map Prod.fst := fun hd => (h.fresh l.index hd).2 ⟨w, l, hl, rfl⟩
  have hlooks : ∀ j, Checking.Looks
      { c with
        workers := c.workers.set w none
        transient := if retryable a then "registry manifest verification unavailable"
          else c.transient
        failed := c.failed || (s.results[l.index]?).any fun v =>
          (verifyOne v a).state == .failed } j ↔ j ≠ l.index ∧ c.Looks j := by
    intro j
    constructor
    · rintro ⟨w', l', hl', rfl⟩
      simp only [List.getElem?_set] at hl'
      split at hl'
      · split at hl' <;> cases hl'
      · next hne =>
        refine ⟨fun he => hne (h.sound.single w w' l l' hl hl' he.symm), w', l', hl', rfl⟩
    · rintro ⟨hne, w', l', hl', rfl⟩
      have hww : w ≠ w' := by
        rintro rfl
        rw [hl] at hl'
        cases hl'
        exact hne rfl
      exact ⟨w', l', by simpa only [List.getElem?_set_ne hww] using hl', rfl⟩
  have hdone : ∀ j, j ∈ (rs ++ [(l.index, a)]).map Prod.fst ↔ j ∈ rs.map Prod.fst ∨ j = l.index := by
    simp
  refine ⟨hsound, ?_, ?_, ?_, ?_, ?_⟩
  · refine forall_snoc (fun p hp => ?_) (by simp)
    have hne : p.1 ≠ l.index := fun he => hndone (he ▸ List.mem_map_of_mem hp)
    rw [Function.update_of_ne hne]
    exact h.agree p hp
  · rw [List.map_append]
    exact List.concat_eq_append ▸ h.once.concat hndone
  · refine List.ext_getElem? fun j => ?_
    simp only [settle, List.getElem?_modify, h.written, List.getElem?_mapIdx, hdone]
    by_cases hj : l.index = j
    · subst hj
      simp [hndone]
    · have hj' : j ≠ l.index := Ne.symm hj
      simp only [hj, hj', or_false, if_false, Function.update_of_ne hj', id_map']
  · intro j
    rw [h.split j, hlooks j, hdone]
    by_cases hj : j = l.index
    · subst hj
      simp only [ne_eq, not_true_eq_false, false_and, or_false, or_true, true_or, iff_true]
      exact .inr (.inr ⟨w, l, hl, rfl⟩)
    · simp [hj]
  · intro j hmem
    rw [hlooks j]
    rcases (hdone j).mp hmem with hd | rfl
    · obtain ⟨hjobs, hother⟩ := h.fresh j hd
      exact ⟨hjobs, fun hn => hother hn.2⟩
    · exact ⟨h.sound.apart w l hl, fun hn => hn.1 rfl⟩

/-- The workers take up the chosen indices. -/
def begun (results : List BuildVerificationResult) (b k : Nat) : State :=
  ⟨results, some { jobs := checkIndices results b, workers := List.replicate k none }⟩

theorem halfway_begun (results : List BuildVerificationResult) (b k : Nat) :
    Halfway results (checkIndices results b) results
      { jobs := checkIndices results b, workers := List.replicate k none } []
      fun _ => .ok ("", "") := by
  refine ⟨sound_start results b k, by simp, List.nodup_nil, ?_, fun i => ?_, by simp⟩
  · refine List.ext_getElem? fun j => ?_
    simp
  · have hnone : ¬ Checking.Looks
        { jobs := checkIndices results b, workers := List.replicate k none } i := by
      rintro ⟨w, l, hl, -⟩
      simp only [List.getElem?_replicate] at hl
      split at hl <;> cases hl
    simp [hnone]

theorem halfway_after {as : List Action} {s' : State}
    (h : (attempts results).after (fun _ a => a.works) s as = some s') (hc : s.checking = some c)
    (hh : Halfway results indices s.results c rs answer) :
    ∃ c' answer', s'.checking = some c' ∧
      Halfway results indices s'.results c' (rs ++ replies results s as) answer' := by
  induction as generalizing s c rs answer with
  | nil =>
    cases h
    exact ⟨c, answer, hc, by simpa [replies] using hh⟩
  | cons a as ih =>
    unfold Automaton.after at h
    split at h
    · next hworks =>
      obtain ⟨⟨s₁, out⟩, hstep, hrest⟩ := Option.bind_eq_some_iff.mp h
      rw [replies, hstep, ← List.append_assoc]
      cases a with
      | look w =>
        simp only [attempts, hc] at hstep
        split at hstep
        · next i rest hw hj =>
          split at hstep
          · next v hv =>
            cases hstep
            simpa [State.replied] using ih hrest rfl (halfway_look hh hw hj hv)
          · cases hstep
        · cases hstep
      | reply w a =>
        simp only [attempts, hc] at hstep
        split at hstep
        · next l hl =>
          cases hstep
          have hreply : s.replied (.reply w a) = some (l.index, a) := by
            simp [State.replied, hc, hl]
          rw [hreply]
          exact ih hrest rfl (halfway_reply hh hl rfl)
        · cases hstep
      | _ => cases hworks
    · cases h

/-- When the workers are through, every chosen index has got one reply, and the results are the ones
the call began with but for those replies. -/
theorem workers_attempt {b k : Nat} {as : List Action} {s' : State}
    (h : (attempts results).after (fun _ a => a.works) (begun results b k) as = some s')
    {c : Checking} (hc : s'.checking = some c) (hjobs : c.jobs = [])
    (hidle : c.workers.all Option.isNone) :
    ((replies results (begun results b k) as).map Prod.fst).Perm (checkIndices results b) ∧
      ∃ answer, (∀ p ∈ replies results (begun results b k) as, answer p.1 = p.2) ∧
        s'.results = attempt b answer results := by
  obtain ⟨c', answer, hc', hh⟩ := halfway_after h rfl (halfway_begun results b k)
  rw [List.nil_append] at hh
  cases hc.symm.trans hc'
  have hdone : ∀ i, i ∈ (replies results (begun results b k) as).map Prod.fst ↔
      i ∈ checkIndices results b := by
    intro i
    have hnone : ¬ c.Looks i := by
      rintro ⟨w, l, hl, -⟩
      have := List.all_eq_true.mp hidle _ (List.mem_of_getElem? hl)
      cases this
    rw [hh.split i, hjobs]
    simp [hnone]
  refine ⟨(List.perm_ext_iff_of_nodup hh.once (checkIndices_nodup results b)).mpr hdone, answer,
    hh.agree, ?_⟩
  rw [hh.written]
  simp only [attempt, hdone]

theorem needsCheck_verifyOne (h : needsCheck v) (a : RegistryReply) :
    needsCheck (verifyOne v a) = retryable a := by
  unfold verifyOne retryable
  split
  · next e =>
    by_cases hd : e.is .registryDefinitive = true
    · simp [hd, needsCheck, failResult]
    · simp [hd, h]
  · split <;> rfl

theorem pendingIndices_attempt (b : Nat) (answer : Nat → RegistryReply)
    (results : List BuildVerificationResult) :
    pendingIndices (attempt b answer results) = (pendingIndices results).filter fun i =>
      decide (i ∉ checkIndices results b) || retryable (answer i) := by
  unfold pendingIndices
  rw [List.filter_filter, show (attempt b answer results).length = results.length from
    List.length_mapIdx]
  refine List.filter_congr fun i _ => ?_
  simp only [attempt, List.getElem?_mapIdx]
  cases hv : results[i]? with
  | none => simp
  | some v =>
    simp only [Option.map_some, Option.any_some]
    by_cases hi : i ∈ checkIndices results b
    · have hneeds : needsCheck v := by simpa [hv] using mem_checkIndices hi
      simp [hi, hneeds, needsCheck_verifyOne hneeds]
    · simp [hi]

theorem pendingIndices_sorted (results : List BuildVerificationResult) :
    (pendingIndices results).Pairwise (· < ·) :=
  List.pairwise_lt_range.filter _

theorem pendingIndices_after (b : Nat) (answers : List (Nat → RegistryReply))
    (results : List BuildVerificationResult) :
    (pendingIndices (afterAttempts b answers results)).Sublist (pendingIndices results) := by
  induction answers generalizing results with
  | nil => exact List.Sublist.refl _
  | cons answer rest ih =>
    refine (ih (attempt b answer results)).trans ?_
    rw [pendingIndices_attempt]
    exact List.filter_sublist

theorem notMem_take {l l' : List Nat} (hl : l.Pairwise (· < ·)) (hs : l'.Sublist l) {x b : Nat}
    (hb : b ≤ (l'.filter (· < x)).length) : x ∉ l.take b := by
  intro hx
  obtain ⟨k, hk, rfl⟩ := List.mem_iff_getElem.mp hx
  rw [List.length_take] at hk
  have hkl : k < l.length := by omega
  rw [List.getElem_take] at hb
  have hle : (l'.filter (· < l[k])).length ≤ (l.filter (· < l[k])).length :=
    (hs.filter _).length_le
  have hsmall : (l.filter (· < l[k])).length ≤ k := by
    have hnil : (l.drop k).filter (· < l[k]) = [] := by
      refine List.filter_eq_nil_iff.mpr fun y hy => ?_
      obtain ⟨m, hm, rfl⟩ := List.mem_iff_getElem.mp hy
      rw [List.length_drop] at hm
      simp only [List.getElem_drop, decide_eq_true_eq, not_lt]
      cases m with
      | zero => exact le_refl _
      | succ m => exact (List.pairwise_iff_getElem.mp hl k (k + (m + 1)) hkl (by omega) (by omega)).le
    calc (l.filter (· < l[k])).length
        = ((l.take k ++ l.drop k).filter (· < l[k])).length := by rw [List.take_append_drop]
      _ ≤ (l.take k).length := by
          rw [List.filter_append, hnil, List.append_nil]
          exact List.length_filter_le _ _
      _ ≤ k := List.length_take_le k l
  omega

theorem length_smaller {l : List Nat} (hl : l.Pairwise (· < ·)) (hne : l ≠ []) :
    l.length - 1 ≤ (l.filter (· < l.getLast hne)).length := by
  have hsplit : l.dropLast ++ [l.getLast hne] = l := List.dropLast_append_getLast hne
  have hall : l.dropLast.filter (· < l.getLast hne) = l.dropLast := by
    refine List.filter_eq_self.mpr fun y hy => decide_eq_true ?_
    rw [← hsplit, List.pairwise_append] at hl
    exact hl.2.2 y hy _ (List.mem_singleton_self _)
  calc l.length - 1
      = (l.dropLast.filter (· < l.getLast hne)).length := by rw [hall, List.length_dropLast]
    _ ≤ (l.filter (· < l.getLast hne)).length :=
        ((List.dropLast_sublist l).filter _).length_le

theorem notMem_lookedUp {b x : Nat} (results : List BuildVerificationResult)
    (hb : b ≤ ((pendingIndices (afterAttempts b answers.dropLast results)).filter
      (· < x)).length) : x ∉ lookedUp b answers results := by
  induction answers generalizing results with
  | nil => simp [lookedUp]
  | cons answer rest ih =>
    rw [lookedUp, List.mem_append, not_or]
    refine ⟨notMem_take (pendingIndices_sorted results) (pendingIndices_after b _ results) hb, ?_⟩
    cases rest with
    | nil => simp [lookedUp]
    | cons next rest => exact ih (attempt b answer results) hb

theorem mem_lookedUp {b i : Nat} (hne : answers ≠ []) {results : List BuildVerificationResult}
    (hi : i ∈ pendingIndices results)
    (hb : (pendingIndices (afterAttempts b answers.dropLast results)).length ≤ b) :
    i ∈ lookedUp b answers results := by
  induction answers generalizing results with
  | nil => exact absurd rfl hne
  | cons answer rest ih =>
    rw [lookedUp, List.mem_append]
    cases rest with
    | nil =>
      left
      change i ∈ (pendingIndices results).take b
      rwa [List.take_of_length_le (show (pendingIndices results).length ≤ b from hb)]
    | cons next rest =>
      by_cases hstill : i ∈ pendingIndices (attempt b answer results)
      · exact .inr (ih (List.cons_ne_nil _ _) hstill hb)
      · left
        rw [pendingIndices_attempt, List.mem_filter] at hstill
        by_contra hn
        exact hstill ⟨hi, by simp [hn]⟩

def attemptCount (p b : Nat) : Nat := (p + b - 1) / b

/-- Every receipt is looked up in the attempts its list should take exactly when at most one batch
is left for the last of them. -/
theorem receipts_looked_up_iff (b : Nat) (hb : 0 < b) (results : List BuildVerificationResult)
    (answers : List (Nat → RegistryReply))
    (hlen : answers.length = attemptCount (pendingIndices results).length b) :
    (∀ i ∈ pendingIndices results, i ∈ lookedUp b answers results) ↔
      (pendingIndices (afterAttempts b answers.dropLast results)).length ≤ b := by
  by_cases hne : answers = []
  · subst hne
    have hp : (pendingIndices results).length = 0 := by
      unfold attemptCount at hlen
      by_contra hp
      have := Nat.div_pos (show b ≤ (pendingIndices results).length + b - 1 by omega) hb
      simp only [List.length_nil] at hlen
      omega
    simp [List.eq_nil_of_length_eq_zero hp, afterAttempts]
  · constructor
    · intro hall
      by_contra hmany
      -- the last receipt of all stands behind a full batch in every attempt
      have hlast : pendingIndices (afterAttempts b answers.dropLast results) ≠ [] := by
        intro hnil
        simp [hnil] at hmany
      have hsmaller := length_smaller (pendingIndices_sorted _) hlast
      refine notMem_lookedUp results (le_trans (by omega) hsmaller) (hall _ ?_)
      exact (pendingIndices_after b _ results).subset (List.getLast_mem hlast)
    · intro hb i hi
      exact mem_lookedUp hne hi hb

def twoReceipts : List BuildVerificationResult :=
  [{ format := .oci, image := "registry.example/app:v1", platform := "linux/amd64",
     pushedDigest := "sha256:1111111111111111111111111111111111111111111111111111111111111111" },
   { format := .oci, image := "registry.example/job:v1", platform := "linux/amd64",
     pushedDigest := "sha256:2222222222222222222222222222222222222222222222222222222222222222" }]

def unreachable (_ : Nat) : RegistryReply := .error (.text "dial tcp: i/o timeout")

/-- With one lookup an attempt, both attempts are spent on the first receipt. -/
theorem second_receipt_starved :
    (List.replicate 2 unreachable).length = attemptCount (pendingIndices twoReceipts).length 1 ∧
      1 ∈ pendingIndices twoReceipts ∧
      1 ∉ lookedUp 1 (List.replicate 2 unreachable) twoReceipts := by
  decide

theorem receipts_looked_up_iff_two :
    (∀ i ∈ pendingIndices twoReceipts, i ∈ lookedUp 2 [unreachable] twoReceipts) ↔
      (pendingIndices (afterAttempts 2 [unreachable].dropLast twoReceipts)).length ≤ 2 :=
  receipts_looked_up_iff 2 (by decide) twoReceipts [unreachable] (by decide)

def missing : RegistryReply := .error (.sentinel .registryDefinitive)

/-- Two workers take an index each, and the second one gets its reply first. -/
theorem workers_attempt_two :
    let as : List Action := [.look 1, .look 0, .reply 0 missing, .reply 1 (unreachable 0)]
    replies twoReceipts (begun twoReceipts 2 2) as = [(1, missing), (0, unreachable 0)] ∧
      ((attempts twoReceipts).after (fun _ a => a.works) (begun twoReceipts 2 2) as).map
        (fun s' => s'.results) =
      some (attempt 2 (fun i => if i = 1 then missing else unreachable i) twoReceipts) := by
  intro as
  have hrun : ∃ s' c, (attempts twoReceipts).after (fun _ a => a.works) (begun twoReceipts 2 2) as =
      some s' ∧ s'.checking = some c ∧ c.jobs = [] ∧ c.workers.all Option.isNone :=
    ⟨_, _, rfl, rfl, rfl, rfl⟩
  obtain ⟨s', c, hs, hc, hjobs, hidle⟩ := hrun
  obtain ⟨-, answer, hagree, hresults⟩ := workers_attempt hs hc hjobs hidle
  have hreplies : replies twoReceipts (begun twoReceipts 2 2) as =
      [(1, missing), (0, unreachable 0)] := rfl
  refine ⟨hreplies, ?_⟩
  rw [hs, Option.map_some, hresults]
  rw [hreplies] at hagree
  refine congrArg some (List.ext_getElem? fun i => ?_)
  have h₁ : answer 1 = missing := hagree (1, missing) (by simp)
  have h₀ : answer 0 = unreachable 0 := hagree (0, unreachable 0) (by simp)
  simp only [attempt, List.getElem?_mapIdx]
  rcases i with _ | _ | i
  · simp [h₀]
  · simp [h₁]
  · simp [twoReceipts]

end KovaService.Receipts
