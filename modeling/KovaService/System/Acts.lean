import KovaService.Lib.RunLogic
import KovaService.System.Service

/-!
What one instant does to the cluster.

`Acts s q s'` lists the ways a request can change the cluster at all; `reply_acts` is the inversion of
the server, and everything about how the cluster evolves is derived from it and from the few actions
of the environment.
-/

namespace KovaService.System

open Lib Api Ledger Runner

variable {c : Choice} {α : Type}

/-- The three updates of a stored build, as functions of the current object. -/
inductive Edits : Request → KovaBuild → (KovaBuild → KovaBuild) → Prop where
  | update (b : KovaBuild) : Edits (.updateBuild b) b
      fun current => { current with annotations := b.annotations, finalizers := b.finalizers }
  | status (b : KovaBuild) : Edits (.updateStatus b) b
      fun current => { current with status := b.status }
  | annotate (b : KovaBuild) : Edits (.patchAnnotations b) b
      fun current => { current with annotations := b.annotations }

/-- A request either leaves the cluster alone or changes it in one of these ways. -/
inductive Acts (s : Cluster) : Request → Cluster → Prop where
  | nothing {q} : Acts s q s
  | nonce {a} (hx : lowerHex a 32 = true) (ha : a ∉ s.nonces) :
      Acts s .nonce { s with nonces := insert a s.nonces }
  | putLedger {writer key patch next} (h : next ≠ s.ledger.data) :
      Acts s (.putLedger writer key patch s.ledger.resourceVersion next)
        { s with
          ledger := { s.ledger with resourceVersion := s.clock + 1, data := next }
          clock := s.clock + 1 }
  | putQueue {writer id patch next} (h : next ≠ s.queue.data) :
      Acts s (.putQueue writer id patch s.queue.resourceVersion next)
        { s with
          queue := { s.queue with resourceVersion := s.clock + 1, data := next }
          clock := s.clock + 1 }
  | createBuild {b uid now} (hu : uid ≠ "") (hf : uid ∉ s.uids)
      (hn : s.builds.lookup b.name = none) :
      Acts s (.createBuild b) (s.createBuild b uid now).1
  | editBuild {q b change current} (hq : Edits q b change)
      (hl : s.builds.lookup b.name = some current) (hu : b.uid = current.uid)
      (hr : b.resourceVersion = current.resourceVersion) (hne : change current ≠ current) :
      Acts s q (s.settleBuild (change current)).1
  | deleteBuild {name uid now current} (hl : s.builds.lookup name = some current)
      (hu : uid = current.uid) : Acts s (.deleteBuild name uid) (s.beginDelete current now)
  | createPod {p uid} (hu : uid ≠ "") (hf : uid ∉ s.uids) (hn : s.pods.lookup p.name = none) :
      Acts s (.createPod p) (s.createPod p uid).1
  | deletePod {name uid now} {current : Pod} (hl : s.pods.lookup name = some current)
      (hu : uid = current.uid) : Acts s (.deletePod name uid) (s.deletePod name uid now).1
  | createReceipt {r uid s' stored} (hu : uid ≠ "") (hf : uid ∉ s.uids)
      (h : s.createReceipt r uid = some (s', stored)) : Acts s (.createReceipt r) s'
  | deleteReceipt {name uid} {current : Receipt} (hl : s.receipts.lookup name = some current)
      (hu : uid = current.uid) :
      Acts s (.deleteReceipt name uid) { s with receipts := s.receipts.erase name }
  | submit {pod expected requestID uid d} (h : s.target pod expected = some (uid, d)) :
      Acts s (.execSubmit pod expected requestID) (s.setDaemon uid (d.handleBuildPost requestID).1)
  | cancel {pod expected uid d} (h : s.target pod expected = some (uid, d)) :
      Acts s (.execCancel pod expected) (s.setDaemon uid (d.cancelActiveBuild "cancel requested"))

section Inversion

variable {s s' : Cluster} {a : Ans α}

theorem fetched_eq {v : Ans α} (h : c.fetched v = some a) :
    a = v ∨ ∃ e, a = .error e ∧ e.isNotFound = false := by
  cases c with
  | ok => exact .inl (Option.some.inj h).symm
  | fail e =>
    simp only [Choice.fetched] at h
    split at h
    · cases h
    · next he => exact .inr ⟨e, (Option.some.inj h).symm, by simpa using he⟩
  | _ => cases h

variable {effect : Cluster × Ans α}

theorem performed_eq (h : c.performed s effect = some (s', a)) :
    (s', a) = effect ∨ s' = s ∧ ∃ e, a = .error e ∧ e.isNotFound = false := by
  cases c with
  | ok => exact .inl (Option.some.inj h).symm
  | fail e =>
    simp only [Choice.performed] at h
    split at h
    · cases h
    · next he => cases h; exact .inr ⟨rfl, e, rfl, by simpa using he⟩
  | _ => cases h

theorem createdAs_eq {effect : UID → Time → Cluster × Ans α}
    (h : c.createdAs s effect = some (s', a)) :
    (∃ uid now, uid ≠ "" ∧ uid ∉ s.uids ∧ (s', a) = effect uid now) ∨
      s' = s ∧ ∃ e, a = .error e ∧ e.isNotFound = false ∧ e.isAlreadyExists = false := by
  cases c with
  | assign uid now =>
    simp only [Choice.createdAs] at h
    split at h
    · cases h
    · next hu =>
      rw [not_or] at hu
      exact .inl ⟨uid, now, hu.1, hu.2, (Option.some.inj h).symm⟩
  | fail e =>
    simp only [Choice.createdAs] at h
    split at h
    · cases h
    · next he =>
      simp only [Bool.or_eq_true, not_or, Bool.not_eq_true] at he
      cases h
      exact .inr ⟨rfl, e, rfl, he⟩
  | _ => cases h

variable {q : Request}

theorem performed_acts (h : c.performed s effect = some (s', a)) (he : Acts s q effect.1) :
    Acts s q s' := by
  rcases performed_eq h with hp | ⟨rfl, -⟩
  · rwa [← hp] at he
  · exact .nothing

theorem editBuild_acts {b : KovaBuild} {change : KovaBuild → KovaBuild} {stale : Reason}
    (hq : Edits q b change) :
    Acts s q (s.updateBuildWith stale b change).1 := by
  unfold Cluster.updateBuildWith
  cases hl : s.builds.lookup b.name with
  | none => exact .nothing
  | some current =>
    simp only
    split_ifs with h1 h2
    · exact .nothing
    · exact .nothing
    · simp only [ne_eq, not_or, not_not] at h1
      exact .editBuild hq hl h1.1 h1.2 h2

theorem swap_cases {D : Type} [DecidableEq D] (cm : Stored D) (clock rv : Nat)
    (patch : Option (List (PatchOp D))) (next : D) :
    (∃ e, Cluster.swap cm clock rv patch next = (none, .error e)) ∨
    rv = cm.resourceVersion ∧ (next = cm.data ∧ Cluster.swap cm clock rv patch next = (none, .ok cm) ∨
      next ≠ cm.data ∧ Cluster.swap cm clock rv patch next =
        (some { cm with resourceVersion := clock + 1, data := next },
          .ok { cm with resourceVersion := clock + 1, data := next })) := by
  unfold Cluster.swap
  by_cases hr : Cluster.refuses cm rv patch next = true
  · exact .inl ⟨_, if_pos hr⟩
  · have hrv : rv = cm.resourceVersion := by
      simp only [Cluster.refuses, Bool.or_eq_true, bne_iff_ne, not_or, not_not] at hr
      exact hr.1
    rw [if_neg hr]
    by_cases hd : next = cm.data
    · exact .inr ⟨hrv, .inl ⟨hd, if_pos hd⟩⟩
    · exact .inr ⟨hrv, .inr ⟨hd, if_neg hd⟩⟩

variable {rv : Nat}

theorem putLedger_acts {writer : LedgerWriter} {key : String} {next : ReservationState}
    {patch : Option (List (PatchOp ReservationState))} :
    Acts s (.putLedger writer key patch rv next) (s.putLedger patch rv next).1 := by
  unfold Cluster.putLedger
  rcases swap_cases s.ledger s.clock rv patch next with ⟨e, h⟩ | ⟨rfl, ⟨-, h⟩ | ⟨hne, h⟩⟩ <;>
    rw [h]
  · exact .nothing
  · exact .nothing
  · exact .putLedger hne

theorem putQueue_acts {writer : QueueWriter} {id : String} {next : QueueState}
    {patch : Option (List (PatchOp QueueState))} :
    Acts s (.putQueue writer id patch rv next) (s.putQueue patch rv next).1 := by
  unfold Cluster.putQueue
  rcases swap_cases s.queue s.clock rv patch next with ⟨e, h⟩ | ⟨rfl, ⟨-, h⟩ | ⟨hne, h⟩⟩ <;>
    rw [h]
  · exact .nothing
  · exact .nothing
  · exact .putQueue hne

variable {uid : UID} {name : String}

theorem deletePod_acts {now : Option Time} :
    Acts s (.deletePod name uid) (s.deletePod name uid now).1 := by
  cases hl : s.pods.lookup name with
  | none => simp only [Cluster.deletePod, hl]; exact .nothing
  | some current =>
    by_cases hu : uid = current.uid
    · exact .deletePod hl hu
    · simp only [Cluster.deletePod, hl, ne_eq, hu, not_false_eq_true, if_true]
      exact .nothing

theorem deletedAt_eq {effect : Time → Cluster × Ans α} (h : c.deletedAt s effect = some (s', a)) :
    (∃ now, (s', a) = effect now) ∨ s' = s ∧ ∃ e, a = .error e ∧ e.isNotFound = false := by
  cases c with
  | time now => exact .inl ⟨now, (Option.some.inj h).symm⟩
  | fail e =>
    simp only [Choice.deletedAt] at h
    split at h
    · cases h
    · next he => cases h; exact .inr ⟨rfl, e, rfl, by simpa using he⟩
  | _ => cases h

theorem terminated_eq {effect : Option Time → Cluster × Ans α}
    (h : c.terminated s effect = some (s', a)) :
    (∃ now, (s', a) = effect now) ∨ s' = s ∧ ∃ e, a = .error e ∧ e.isNotFound = false := by
  cases c with
  | ok => exact .inl ⟨none, (Option.some.inj h).symm⟩
  | _ =>
    simp only [Choice.terminated] at h
    refine (deletedAt_eq h).imp_left ?_
    rintro ⟨now, hp⟩
    exact ⟨some now, hp⟩

theorem receiptCreated_eq {r : Receipt} {a : Option Receipt × Option Err}
    (h : c.receiptCreated s r = some (s', a)) :
    (∃ uid stored, uid ≠ "" ∧ uid ∉ s.uids ∧ s.createReceipt r uid = some (s', stored) ∧
      a = (some stored, none)) ∨
    s' = s ∧ ∃ o e, a = (o, some e) ∧ e.isNotFound = false ∧
      (e.isAlreadyExists ↔ (s.receipts.lookup r.name).isSome) ∧
      ∀ r ∈ o, r.name = "" := by
  cases c with
  | assign uid now =>
    simp only [Choice.receiptCreated] at h
    split at h
    · cases h
    · next hu =>
      rw [not_or] at hu
      obtain ⟨⟨s'', stored⟩, hs, he⟩ := Option.map_eq_some_iff.mp h
      cases he
      exact .inl ⟨uid, stored, hu.1, hu.2, hs, rfl⟩
  | receipt o e =>
    simp only [Choice.receiptCreated] at h
    split at h
    · cases h
    next hc =>
    cases h
    simp only [Bool.or_eq_true, bne_iff_ne, ne_eq, not_or, not_not, Bool.not_eq_true,
      Option.any_eq_true] at hc
    refine .inr ⟨rfl, o, e, rfl, hc.1.1, by rw [hc.1.2], fun r hr => ?_⟩
    by_contra hne
    have := hc.2
    simp_all
  | _ => cases h

theorem executed_eq {effect : Option (Cluster × α)} {other : Choice → Option α}
    (h : c.executed s effect other = some (s', a)) :
    (∃ x, effect = some (s', x) ∧ a = .ok x) ∨ s' = s := by
  cases c with
  | ok =>
    obtain ⟨⟨s'', x⟩, hs, he⟩ := Option.map_eq_some_iff.mp h
    cases he
    exact .inl ⟨x, hs, rfl⟩
  | fail e => cases h; exact .inr rfl
  | _ =>
    obtain ⟨x, -, he⟩ := Option.map_eq_some_iff.mp h
    cases he
    exact .inr rfl

theorem minted_eq {a : Ans String} (h : c.minted s = some (s', a)) :
    (∃ x, lowerHex x 32 ∧ x ∉ s.nonces ∧ a = .ok x ∧
      s' = { s with nonces := insert x s.nonces }) ∨ s' = s ∧ ∃ e, a = .error e := by
  cases c with
  | text x =>
    simp only [Choice.minted] at h
    split at h
    · next hx => cases h; exact .inl ⟨x, hx.1, hx.2, rfl, rfl⟩
    · cases h
  | fail e => cases h; exact .inr ⟨rfl, e, rfl⟩
  | _ => cases h

theorem answered_eq {o : Option α} {a : α} (h : (o.map fun x => (s, x)) = some (s', a)) :
    s' = s ∧ o = some a := by
  obtain ⟨x, hx, he⟩ := Option.map_eq_some_iff.mp h
  cases he
  exact ⟨rfl, hx⟩

theorem createBuild_acts {b : KovaBuild} {now : Time} (hu : uid ≠ "") (hf : uid ∉ s.uids) :
    Acts s (.createBuild b) (s.createBuild b uid now).1 := by
  cases hn : s.builds.lookup b.name with
  | none => exact .createBuild hu hf hn
  | some current =>
    simp only [Cluster.createBuild, hn, Option.isSome_some, if_true]
    exact .nothing

theorem createPod_acts {p : Pod} (hu : uid ≠ "") (hf : uid ∉ s.uids) :
    Acts s (.createPod p) (s.createPod p uid).1 := by
  cases hn : s.pods.lookup p.name with
  | none => exact .createPod hu hf hn
  | some current =>
    simp only [Cluster.createPod, hn, Option.isSome_some, if_true]
    exact .nothing

theorem deleteBuild_acts {now : Time} :
    Acts s (.deleteBuild name uid) (s.deleteBuild name uid now).1 := by
  cases hl : s.builds.lookup name with
  | none => simp only [Cluster.deleteBuild, hl]; exact .nothing
  | some current =>
    simp only [Cluster.deleteBuild, hl]
    split_ifs with hu
    · exact .nothing
    · exact .deleteBuild hl (not_not.mp hu)

theorem deleteReceipt_acts : Acts s (.deleteReceipt name uid) (s.deleteReceipt name uid).1 := by
  cases hl : s.receipts.lookup name with
  | none => simp only [Cluster.deleteReceipt, hl]; exact .nothing
  | some current =>
    simp only [Cluster.deleteReceipt, hl]
    split_ifs with hu
    · exact .nothing
    · exact .deleteReceipt hl (not_not.mp hu)

/-- The inversion of the server. -/
theorem reply_acts {w : World} {r : Answer q} (h : w.reply s q c = some (s', r)) : Acts s q s' := by
  cases q with
  | putLedger => exact performed_acts h putLedger_acts
  | putQueue => exact performed_acts h putQueue_acts
  | updateBuild b => exact performed_acts h (editBuild_acts (.update b))
  | updateStatus b => exact performed_acts h (editBuild_acts (.status b))
  | patchAnnotations b => exact performed_acts h (editBuild_acts (.annotate b))
  | deleteReceipt => exact performed_acts h deleteReceipt_acts
  | createBuild b =>
    rcases createdAs_eq h with ⟨uid, now, hu, hf, hp⟩ | ⟨rfl, -⟩
    · rw [show s' = (s.createBuild b uid now).1 from congrArg Prod.fst hp]
      exact createBuild_acts hu hf
    · exact .nothing
  | createPod p =>
    rcases createdAs_eq h with ⟨uid, now, hu, hf, hp⟩ | ⟨rfl, -⟩
    · rw [show s' = (s.createPod p uid).1 from congrArg Prod.fst hp]
      exact createPod_acts hu hf
    · exact .nothing
  | deleteBuild name uid =>
    rcases deletedAt_eq h with ⟨now, hp⟩ | ⟨rfl, -⟩
    · rw [show s' = (s.deleteBuild name uid now).1 from congrArg Prod.fst hp]
      exact deleteBuild_acts
    · exact .nothing
  | deletePod name uid =>
    rcases terminated_eq h with ⟨now, hp⟩ | ⟨rfl, -⟩
    · rw [show s' = (s.deletePod name uid now).1 from congrArg Prod.fst hp]
      exact deletePod_acts
    · exact .nothing
  | createReceipt =>
    rcases receiptCreated_eq h with ⟨uid, stored, hu, hf, hs, -⟩ | ⟨rfl, -⟩
    · exact .createReceipt hu hf hs
    · exact .nothing
  | execSubmit =>
    rcases executed_eq h with ⟨x, hs, -⟩ | rfl
    · obtain ⟨⟨u, d⟩, ht, hd⟩ := Option.map_eq_some_iff.mp hs
      cases hd
      exact .submit ht
    · exact .nothing
  | execCancel =>
    rcases executed_eq h with ⟨x, hs, -⟩ | rfl
    · obtain ⟨s'', hc, he⟩ := Option.map_eq_some_iff.mp hs
      obtain ⟨⟨u, d⟩, ht, hd⟩ := Option.map_eq_some_iff.mp hc
      cases he
      cases hd
      exact .cancel ht
    · exact .nothing
  | nonce =>
    rcases minted_eq h with ⟨x, hx, hn, -, rfl⟩ | ⟨rfl, -⟩
    · exact .nonce hx hn
    · exact .nothing
  | mark => cases h; exact .nothing
  | _ => rw [(answered_eq h).1]; exact .nothing

end Inversion

inductive EnvActs (s : Cluster) : EnvAction → Cluster → Prop where
  | createBuild {b uid now} (hu : uid ≠ "") (hf : uid ∉ s.uids) (hb : unlinked b = true)
      (hn : s.builds.lookup b.name = none) :
      EnvActs s (.createBuild b uid now) (s.createBuild b uid now).1
  | deleteBuild {name now current} (hl : s.builds.lookup name = some current) :
      EnvActs s (.deleteBuild name now) (s.beginDelete current now)
  | cancelBuild {name text} {current : KovaBuild} (hl : s.builds.lookup name = some current)
      (ht : text ≠ "") (hc : current.cancellationRequested = false) :
      EnvActs s (.cancelBuild name text) (s.settleBuild { current with
        annotations := { current.annotations with cancellationRequestedAt := text } }).1
  | podStatus {name status} {current : Pod} (hl : s.pods.lookup name = some current) :
      EnvActs s (.podStatus name status)
        { s with pods := s.pods.insert name { current with status := status } }
  | podTerminating {name now} {current : Pod} (hl : s.pods.lookup name = some current) :
      EnvActs s (.podTerminating name now)
        { s with pods := s.pods.insert name { current with deletionTimestamp := some now } }
  | podGone {name} : EnvActs s (.podGone name) { s with pods := s.pods.erase name }
  | runner {uid e d d'} (hd : s.daemons.lookup uid = some d) (ha : Daemon.advance d e = some d') :
      EnvActs s (.runner uid e)
        { s.setDaemon uid d' with
          runs := if e = .run then s.runs ++ [(uid, d.requestID)] else s.runs }
  | retire {uid requestID} {d : Daemon} (hd : s.daemons.lookup uid = some d) :
      EnvActs s (.retire uid requestID) (s.setDaemon uid (d.handleBuildRetirePost requestID))

theorem env_acts {s s' : Cluster} {e : EnvAction} (h : env s e = some s') : EnvActs s e s' := by
  cases e with
  | createBuild b uid now =>
    simp only [env] at h
    split at h
    · cases h
    · next hc =>
      simp only [not_or, Bool.not_eq_false, Bool.not_eq_true, Option.isSome_eq_false_iff,
        Option.isNone_iff_eq_none] at hc
      cases h
      exact .createBuild hc.1 hc.2.1 hc.2.2.1 hc.2.2.2
  | deleteBuild name now =>
    obtain ⟨b, hl, he⟩ := Option.map_eq_some_iff.mp h
    cases he
    exact .deleteBuild hl
  | cancelBuild name text =>
    obtain ⟨b, hl, he⟩ := Option.bind_eq_some_iff.mp h
    split at he
    · cases he
    · next hc =>
      simp only [not_or, Bool.not_eq_true] at hc
      cases he
      exact .cancelBuild hl hc.1 hc.2
  | podStatus name status =>
    obtain ⟨p, hl, he⟩ := Option.map_eq_some_iff.mp h
    cases he
    exact .podStatus hl
  | podTerminating name now =>
    obtain ⟨p, hl, he⟩ := Option.map_eq_some_iff.mp h
    cases he
    exact .podTerminating hl
  | podGone name => cases h; exact .podGone
  | runner uid e =>
    obtain ⟨d, hd, he⟩ := Option.bind_eq_some_iff.mp h
    obtain ⟨d', ha, he⟩ := Option.map_eq_some_iff.mp he
    cases he
    have hr := EnvActs.runner hd ha
    by_cases hrun : e = .run <;> simpa [hrun, Cluster.setDaemon] using hr
  | retire uid requestID =>
    obtain ⟨d, hd, he⟩ := Option.map_eq_some_iff.mp h
    cases he
    exact .retire hd

variable {w : World} (ρ : w.Execution)

theorem effect_acts {n id : Nat} {r : Answer q} (h : ρ.takesEffect n id q c r) :
    Acts (ρ.store n) q (ρ.store (n + 1)) :=
  reply_acts h.2.1

/-- Every change of the cluster is the doing of one request or one action of the environment. -/
theorem store_succ (n : Nat) :
    ρ.store (n + 1) = ρ.store n ∨
    (∃ q, ρ.acts n q ∧ Acts (ρ.store n) q (ρ.store (n + 1))) ∨
    ∃ e, ρ.label n = .env e ∧ EnvActs (ρ.store n) e (ρ.store (n + 1)) := by
  cases ρ.storeStep n with
  | same h => exact .inl h
  | env e hl h => exact .inr (.inr ⟨e, hl, env_acts h⟩)
  | read t q c r hw hg h => exact .inr (.inl ⟨q, .inr ⟨hw, t, r, hg⟩, reply_acts h⟩)
  | effect id q c r h => exact .inr (.inl ⟨q, .inl ⟨id, c, r, h⟩, effect_acts ρ h⟩)

end KovaService.System
