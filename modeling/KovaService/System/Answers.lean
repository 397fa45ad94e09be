import KovaService.System.Builds
import KovaService.System.Objects

/-!
What a thread learns from an answer.
-/

namespace KovaService.System

open Lib Api Ledger Runner

variable {w : World} {ρ : w.Execution} {m t : Nat}

variable {name : String} {cm : LedgerMap}

theorem getLedger_answer (h : ρ.gets m t .getLedger (.ok cm)) : cm = (ρ.store m).ledger := by
  obtain ⟨c, hc⟩ := h.read rfl
  rcases fetched_eq (answered_eq hc).2 with he | ⟨e, he, -⟩
  · exact Except.ok.inj he
  · cases he

theorem getQueue_answer {cm : QueueMap} (h : ρ.gets m t .getQueue (.ok cm)) :
    cm = (ρ.store m).queue := by
  obtain ⟨c, hc⟩ := h.read rfl
  rcases fetched_eq (answered_eq hc).2 with he | ⟨e, he, -⟩
  · exact Except.ok.inj he
  · cases he

variable {c : Choice} {α : Type}

/-- A read by name: what is found is stored, and "not found" means that nothing is. -/
theorem found_answer {kind : String} {o : Option α} {a : Ans α}
    (h : (c.fetched (World.found kind name o)) = some a) :
    (∀ x, a = .ok x → o = some x) ∧ (∀ e, a = .error e → e.isNotFound → o = none) := by
  rcases fetched_eq h with rfl | ⟨e, rfl, hn⟩
  · cases o with
    | none => exact ⟨fun x hx => (by cases hx), fun _ _ _ => rfl⟩
    | some y => exact ⟨fun x hx => congrArg some (Except.ok.inj hx), fun e he => (by cases he)⟩
  · refine ⟨fun x hx => (by cases hx), fun e' he' ht => ?_⟩
    cases he'
    rw [hn] at ht
    cases ht

variable {b : KovaBuild}

theorem getBuild_answer (h : ρ.gets m t (.getBuild name) (.ok b)) :
    (ρ.store m).builds.lookup name = some b := by
  obtain ⟨c, hc⟩ := h.read rfl
  exact (found_answer (answered_eq hc).2).1 b rfl

theorem getPod_answer {p : Pod} (h : ρ.gets m t (.getPod name) (.ok p)) :
    (ρ.store m).pods.lookup name = some p := by
  obtain ⟨c, hc⟩ := h.read rfl
  exact (found_answer (answered_eq hc).2).1 p rfl

theorem getPod_absent {e : Err} (h : ρ.gets m t (.getPod name) (.error e)) (he : e.isNotFound) :
    (ρ.store m).pods.lookup name = none := by
  obtain ⟨c, hc⟩ := h.read rfl
  exact (found_answer (answered_eq hc).2).2 e rfl he

theorem getReceipt_answer {r : Receipt} (h : ρ.gets m t (.getReceipt name) (.ok r)) :
    (ρ.store m).receipts.lookup name = some r := by
  obtain ⟨c, hc⟩ := h.read rfl
  exact (found_answer (answered_eq hc).2).1 r rfl

theorem getReceipt_absent {e : Err} (h : ρ.gets m t (.getReceipt name) (.error e))
    (he : e.isNotFound) :
    (ρ.store m).receipts.lookup name = none := by
  obtain ⟨c, hc⟩ := h.read rfl
  exact (found_answer (answered_eq hc).2).2 e rfl he

theorem cachedBuild_answer (h : ρ.gets m t (.cachedBuild name) (.ok b)) :
    b ∈ (ρ.store m).versions ∧ b.name = name := by
  obtain ⟨c, hc⟩ := h.read rfl
  have he := (answered_eq hc).2
  cases c with
  | version b' =>
    simp only [Choice.either, Choice.cached] at he
    split at he
    · next hb =>
      cases he
      exact hb
    · cases he
  | fail e => cases he
  | _ => simp [Choice.either, Choice.cached] at he

theorem acts_of_answer {q : Request} {r : Answer q} (h : ρ.gets m t q r) (hw : wired q)
    (hl : ∀ c, lost q c ≠ some r) : ∃ id c, ρ.takesEffect m id q c r := by
  rcases h.effect hw with he | ⟨c, hc⟩
  · exact he
  · exact absurd hc (hl c)

theorem givenUp_eq {r : Ans α} (h : c.givenUp = some r) : ∃ e, r = .error e ∧ unknownOutcome e := by
  cases c with
  | fail e =>
    simp only [Choice.givenUp] at h
    split at h
    · next hu => exact ⟨e, (Option.some.inj h).symm, hu⟩
    · cases h
  | _ => cases h

theorem not_givenUp_ok {a : α} : c.givenUp ≠ some (.ok a : Ans α) := by
  intro h
  obtain ⟨e, he, -⟩ := givenUp_eq h
  cases he

variable {rv : Nat} {next : ReservationState} {writer : LedgerWriter} {uid : String}
variable {patch : Option (List (PatchOp ReservationState))}

theorem putLedger_ok (h : ρ.gets m t (.putLedger writer uid patch rv next) (.ok cm)) :
    (ρ.store (m + 1)).ledger.data = next := by
  obtain ⟨_, c, he⟩ := acts_of_answer h rfl fun c => not_givenUp_ok
  rcases performed_eq he.2.1 with hp | ⟨-, e, hf, -⟩
  · unfold Cluster.putLedger at hp
    rcases swap_cases (ρ.store m).ledger (ρ.store m).clock rv patch next with
      ⟨e, hs⟩ | ⟨-, ⟨hd, hs⟩ | ⟨-, hs⟩⟩ <;> rw [hs] at hp
    · cases congrArg Prod.snd hp
    · rw [show ρ.store (m + 1) = ρ.store m from congrArg Prod.fst hp, hd]
    · rw [show ρ.store (m + 1) = _ from congrArg Prod.fst hp]
  · cases hf

theorem putQueue_ok {writer : QueueWriter} {id : String} {next : QueueState} {cm : QueueMap}
    {patch : Option (List (PatchOp QueueState))}
    (h : ρ.gets m t (.putQueue writer id patch rv next) (.ok cm)) :
    (ρ.store (m + 1)).queue.data = next := by
  obtain ⟨_, c, he⟩ := acts_of_answer h rfl fun c => not_givenUp_ok
  rcases performed_eq he.2.1 with hp | ⟨-, e, hf, -⟩
  · unfold Cluster.putQueue at hp
    rcases swap_cases (ρ.store m).queue (ρ.store m).clock rv patch next with
      ⟨e, hs⟩ | ⟨-, ⟨hd, hs⟩ | ⟨-, hs⟩⟩ <;> rw [hs] at hp
    · cases congrArg Prod.snd hp
    · rw [show ρ.store (m + 1) = ρ.store m from congrArg Prod.fst hp, hd]
    · rw [show ρ.store (m + 1) = _ from congrArg Prod.fst hp]
  · cases hf

theorem putLedger_swaps (h : ρ.acts m (.putLedger writer uid patch rv next)) :
    (ρ.store (m + 1)).ledger = (ρ.store m).ledger ∨
      rv = (ρ.store m).ledger.resourceVersion ∧ (ρ.store (m + 1)).ledger.data = next := by
  obtain ⟨_, c, r, he⟩ := effect_of_acts ρ h rfl
  have ha := effect_acts ρ he
  generalize ρ.store (m + 1) = s' at ha ⊢
  cases ha with
  | nothing => exact .inl rfl
  | putLedger => exact .inr ⟨rfl, rfl⟩
  | editBuild hq => cases hq

theorem putQueue_swaps {writer : QueueWriter} {id : String} {next : QueueState}
    {patch : Option (List (PatchOp QueueState))}
    (h : ρ.acts m (.putQueue writer id patch rv next)) :
    (ρ.store (m + 1)).queue = (ρ.store m).queue ∨
      rv = (ρ.store m).queue.resourceVersion ∧ (ρ.store (m + 1)).queue.data = next := by
  obtain ⟨_, c, r, he⟩ := effect_of_acts ρ h rfl
  have ha := effect_acts ρ he
  generalize ρ.store (m + 1) = s' at ha ⊢
  cases ha with
  | nothing => exact .inl rfl
  | putQueue => exact .inr ⟨rfl, rfl⟩
  | editBuild hq => cases hq

variable {stored : KovaBuild}

theorem updateBuildWith_ok {s s' : Cluster} {stale : Reason} {change : KovaBuild → KovaBuild}
    (h : (s', .ok stored) = s.updateBuildWith stale b change) :
    ∃ current, s.builds.lookup b.name = some current ∧ b.uid = current.uid ∧
      b.resourceVersion = current.resourceVersion ∧
      (change current = current ∧ stored = current ∨
        change current ≠ current ∧ (s', stored) = s.settleBuild (change current)) := by
  unfold Cluster.updateBuildWith at h
  cases hl : s.builds.lookup b.name with
  | none =>
    rw [hl] at h
    simp [Cluster.notFound] at h
  | some current =>
    rw [hl] at h
    simp only at h
    split_ifs at h with h1 h2
    · simp at h
    · simp only [ne_eq, not_or, not_not] at h1
      simp only [Prod.mk.injEq, Except.ok.injEq] at h
      exact ⟨current, rfl, h1.1, h1.2, .inl ⟨h2, h.2⟩⟩
    · simp only [ne_eq, not_or, not_not] at h1
      simp only [Prod.mk.injEq, Except.ok.injEq] at h
      exact ⟨current, rfl, h1.1, h1.2, .inr ⟨h2, Prod.ext h.1 h.2⟩⟩

/-- A status write that succeeds replaces the status of the version it was computed from. -/
theorem updateStatus_ok (h : ρ.gets m t (.updateStatus b) (.ok stored)) :
    ∃ current, (ρ.store m).builds.lookup b.name = some current ∧ b.uid = current.uid ∧
      b.resourceVersion = current.resourceVersion ∧ stored ∈ (ρ.store (m + 1)).versions ∧
      stored = { current with
        status := b.status, resourceVersion := stored.resourceVersion } := by
  obtain ⟨id, c, he⟩ := acts_of_answer h rfl fun c => not_givenUp_ok
  rcases performed_eq he.2.1 with hp | ⟨-, e, hf, -⟩
  · obtain ⟨current, hl, hu, hr, ⟨hs, rfl⟩ | ⟨-, hs⟩⟩ := updateBuildWith_ok hp
    · refine ⟨stored, hl, hu, hr, ?_, hs.symm⟩
      exact versions_succ ρ m ((versions_ok ρ m).current _ _ hl).1
    · -- the build keeps its finalizers, so the write does not end a deletion
      have hfin := deleting_finalizers ρ hl
      have hno : ((current.deletionTimestamp.isSome && current.finalizers == []) = true) = False := by
        simpa using fun hd => by simpa using hfin hd
      simp only [Cluster.settleBuild, hno, if_false, Cluster.storeBuild, Prod.mk.injEq] at hs
      refine ⟨current, hl, hu, hr, ?_, by rw [hs.2]⟩
      rw [show ρ.store (m + 1) = _ from hs.1, hs.2]
      exact List.mem_cons_self
  · cases hf

theorem createPod_arrived {p : Pod} {r : Ans Pod} (h : ρ.gets m t (.createPod p) r)
    (hr : ∀ e, r = .error e → unknownOutcome e = false) : ρ.acts m (.createPod p) := by
  obtain ⟨id, c, he⟩ := acts_of_answer h rfl fun c hc => by
    obtain ⟨e, he, hu⟩ := givenUp_eq hc
    rw [hr e he] at hu
    cases hu
  exact .inl ⟨id, c, r, he⟩

theorem createBuild_refused {e : Err} (h : ρ.gets m t (.createBuild b) (.error e))
    (he : unknownOutcome e = false) :
    ρ.acts m (.createBuild b) ∧ (ρ.store (m + 1)).versions = (ρ.store m).versions := by
  obtain ⟨id, c, hef⟩ := acts_of_answer h rfl fun c hc => by
    obtain ⟨e', he', hu⟩ := givenUp_eq hc
    cases he'
    rw [he] at hu
    cases hu
  refine ⟨.inl ⟨id, c, _, hef⟩, ?_⟩
  rcases createdAs_eq hef.2.1 with ⟨uid, now, -, -, hp⟩ | ⟨hs, -⟩
  · unfold Cluster.createBuild at hp
    split at hp
    · rw [show ρ.store (m + 1) = ρ.store m from congrArg Prod.fst hp]
    · cases congrArg Prod.snd hp
  · rw [show ρ.store (m + 1) = ρ.store m from hs]

end KovaService.System
