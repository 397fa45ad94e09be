import KovaService.System.History

/-!
The history of runner Pods and recovery receipts.  Both come into being only by a Create that
arrives; a Pod's identity never changes, a receipt is never modified and goes only by a Delete that
names its UID.
-/

namespace KovaService.System

open Lib Api Ledger Runner

variable {w : World} (ρ : w.Execution) {name : String}

/-- Two snapshots of one Pod: everything but its status and its termination. -/
structure SamePod (p p' : Pod) : Prop where
  uid : p'.uid = p.uid
  name : p'.name = p.name
  label : p'.buildIDLabel = p.buildIDLabel
  annotations : p'.annotations = p.annotations
  owners : p'.ownerReferences = p.ownerReferences
  spec : p'.spec = p.spec

theorem SamePod.refl (p : Pod) : SamePod p p := ⟨rfl, rfl, rfl, rfl, rfl, rfl⟩

theorem SamePod.trans {a b c : Pod} (h : SamePod a b) (h' : SamePod b c) : SamePod a c :=
  ⟨h'.uid.trans h.uid, h'.name.trans h.name, h'.label.trans h.label,
    h'.annotations.trans h.annotations, h'.owners.trans h.owners, h'.spec.trans h.spec⟩

/-- Pod `p` is created at instant `n` from the request `p₀`. -/
structure PodBirth (n : Nat) (p₀ p : Pod) : Prop where
  acts : ρ.acts n (.createPod p₀)
  vacant : (ρ.store n).pods.lookup p₀.name = none
  fresh : p.uid ∉ (ρ.store n).uids
  known : p.uid ∈ (ρ.store (n + 1)).uids
  same : SamePod { p₀ with uid := p.uid } p

variable {p : Pod}

theorem deletePod_lookup {s : Cluster} {uid : UID} {now : Option Time} {name' : String}
    (h : (s.deletePod name uid now).1.pods.lookup name' = some p) :
    ∃ p₀, s.pods.lookup name' = some p₀ ∧ SamePod p₀ p := by
  unfold Cluster.deletePod at h
  cases hl : s.pods.lookup name with
  | none =>
    rw [hl] at h
    exact ⟨p, h, SamePod.refl p⟩
  | some current =>
    rw [hl] at h
    simp only at h
    split at h
    · exact ⟨p, h, SamePod.refl p⟩
    · cases now with
      | none => exact ⟨p, (lookup_of_erase h).2, SamePod.refl p⟩
      | some now =>
        rcases lookup_insert_cases h with ⟨rfl, rfl⟩ | ⟨-, h⟩
        · exact ⟨current, hl, ⟨rfl, rfl, rfl, rfl, rfl, rfl⟩⟩
        · exact ⟨p, h, SamePod.refl p⟩

variable {n : Nat}

theorem pods_succ (h : (ρ.store (n + 1)).pods.lookup name = some p) :
    (∃ p₀, (ρ.store n).pods.lookup name = some p₀ ∧ SamePod p₀ p) ∨
      ∃ p₀, p₀.name = name ∧ PodBirth ρ n p₀ p ∧ ∀ name' p', name' ≠ name →
        (ρ.store (n + 1)).pods.lookup name' = some p' →
        (ρ.store n).pods.lookup name' = some p' := by
  have keep : (ρ.store (n + 1)).pods = (ρ.store n).pods →
      ∃ p₀, (ρ.store n).pods.lookup name = some p₀ ∧ SamePod p₀ p :=
    fun he => ⟨p, he ▸ h, SamePod.refl p⟩
  rcases store_succ ρ n with hs | ⟨q, hq, ha⟩ | ⟨e, -, ha⟩
  · exact .inl (keep (by rw [hs]))
  · by_cases hp : part q = .pods
    · generalize hs : ρ.store (n + 1) = s' at ha
      cases ha with
      | nothing => exact .inl (keep (by rw [hs]))
      | @createPod p₀ uid hu hf hn =>
        have hs' := hs
        unfold Cluster.createPod at hs'
        rw [hn] at hs'
        simp only [Option.isSome_none, Bool.false_eq_true, if_false] at hs'
        rw [hs'] at h
        rcases lookup_insert_cases h with ⟨rfl, rfl⟩ | ⟨-, h⟩
        · refine .inr ⟨p₀, rfl, ⟨hq, hn, hf, ?_, ⟨rfl, rfl, rfl, rfl, rfl, rfl⟩⟩, ?_⟩
          · rw [hs']
            exact Finset.mem_insert_self uid _
          · intro name' p' hne h'
            rw [← hs, hs'] at h'
            exact (lookup_insert_cases h').resolve_left (fun hk => hne hk.1) |>.2
        · exact .inl ⟨p, h, SamePod.refl p⟩
      | deletePod hl hu => exact .inl (deletePod_lookup (hs ▸ h))
      | editBuild he => cases he <;> cases hp
      | _ => cases hp
    · exact .inl (keep (ha.frame.pods hp))
  · generalize hs : ρ.store (n + 1) = s' at ha
    have hframe := ha.frame
    rw [hs] at h
    cases ha with
    | podStatus hl | podTerminating hl =>
      rcases lookup_insert_cases h with ⟨rfl, rfl⟩ | ⟨-, h⟩
      · exact .inl ⟨_, hl, ⟨rfl, rfl, rfl, rfl, rfl, rfl⟩⟩
      · exact .inl ⟨p, h, SamePod.refl p⟩
    | podGone => exact .inl ⟨p, (lookup_of_erase h).2, SamePod.refl p⟩
    | _ => exact .inl (keep (by rw [hs, hframe.pods (by simp [envPart])]))

theorem pod_born_since {j : Nat} (hjn : j ≤ n) (hj : (ρ.store j).pods.lookup name = none)
    (h : (ρ.store n).pods.lookup name = some p) :
    p.name = name ∧ ∃ m p₀, j ≤ m ∧ m < n ∧ PodBirth ρ m p₀ p := by
  induction hjn generalizing p with
  | refl => simp [hj] at h
  | @step n hjn ih =>
    rcases pods_succ ρ h with ⟨p₀, hl, hs⟩ | ⟨p₀, rfl, hb, -⟩
    · obtain ⟨hname, m, p₁, hjm, hm, hb⟩ := ih hl
      refine ⟨hs.name.trans hname, m, p₁, hjm, Nat.lt_succ_of_lt hm, hb.acts, hb.vacant, ?_, ?_, ?_⟩
      · rw [hs.uid]; exact hb.fresh
      · rw [hs.uid]; exact hb.known
      · rw [hs.uid]; exact hb.same.trans hs
    · exact ⟨hb.same.name, n, p₀, hjn, Nat.lt_succ_self n, hb⟩

theorem pod_born (h : (ρ.store n).pods.lookup name = some p) :
    p.name = name ∧ ∃ m p₀, m < n ∧ PodBirth ρ m p₀ p := by
  have h₀ : (ρ.store 0).pods.lookup name = none := by
    simp [Run.store, ρ.zero, Semantics.start, World.initial]
  obtain ⟨hname, m, p₀, -, hm, hb⟩ := pod_born_since ρ (Nat.zero_le n) h₀ h
  exact ⟨hname, m, p₀, hm, hb⟩

variable {r : Receipt}

theorem receipts_succ (h : (ρ.store (n + 1)).receipts.lookup name = some r) :
    (ρ.store n).receipts.lookup name = some r ∨
      ∃ r₀, ρ.acts n (.createReceipt r₀) ∧ r₀.name = name ∧ r.name = name ∧ r.data = r₀.data := by
  have keep : (ρ.store (n + 1)).receipts = (ρ.store n).receipts →
      (ρ.store n).receipts.lookup name = some r := fun he => he ▸ h
  rcases store_succ ρ n with hs | ⟨q, hq, ha⟩ | ⟨e, -, ha⟩
  · exact .inl (keep (by rw [hs]))
  · by_cases hp : part q = .receipts
    · generalize hs : ρ.store (n + 1) = s' at ha
      cases ha with
      | nothing => exact .inl (keep (by rw [hs]))
      | @createReceipt r₀ uid _ stored hu hf hc =>
        obtain ⟨hn, hstored, hs'⟩ := createReceipt_eq hc
        rw [hs, hs'] at h
        rcases lookup_insert_cases h with ⟨rfl, rfl⟩ | ⟨-, h⟩
        · exact .inr ⟨r₀, hq, rfl, by rw [hstored], by rw [hstored]⟩
        · exact .inl h
      | deleteReceipt hl hu =>
        rw [hs] at h
        exact .inl (lookup_of_erase h).2
      | editBuild he => cases he <;> cases hp
      | _ => cases hp
    · exact .inl (keep (ha.frame.receipts hp))
  · exact .inl (keep (ha.frame.receipts (by cases e <;> simp [envPart])))

theorem receipt_removed (h : (ρ.store n).receipts.lookup name = some r)
    (h' : (ρ.store (n + 1)).receipts.lookup name ≠ some r) :
    ρ.acts n (.deleteReceipt name r.uid) := by
  rcases store_succ ρ n with hs | ⟨q, hq, ha⟩ | ⟨e, -, ha⟩
  · exact absurd (by rw [hs, h]) h'
  · by_cases hp : part q = .receipts
    · generalize hs : ρ.store (n + 1) = s' at ha h'
      cases ha with
      | nothing => exact absurd h h'
      | @createReceipt r₀ uid _ stored hu hf hc =>
        obtain ⟨hn, -, hs'⟩ := createReceipt_eq hc
        have hne : name ≠ r₀.name := by
          rintro rfl
          rw [hn] at h
          cases h
        rw [hs'] at h'
        exact absurd ((Finmap.lookup_insert_of_ne _ hne).trans h) h'
      | @deleteReceipt name' uid current hl hu =>
        by_cases hne : name = name'
        · subst hne
          rw [h] at hl
          cases hl
          rwa [hu] at hq
        · exact absurd ((Finmap.lookup_erase_ne hne).trans h) h'
      | editBuild he => cases he <;> cases hp
      | _ => cases hp
    · exact absurd (by rw [ha.frame.receipts hp, h]) h'
  · exact absurd (by rw [ha.frame.receipts (by cases e <;> simp [envPart]), h]) h'

theorem receipt_born_since {j : Nat} (hjn : j ≤ n) (hj : (ρ.store j).receipts.lookup name = none)
    (h : (ρ.store n).receipts.lookup name = some r) :
    r.name = name ∧ ∃ m r₀, j ≤ m ∧ m < n ∧ ρ.acts m (.createReceipt r₀) ∧ r₀.name = name ∧
      r.data = r₀.data := by
  induction hjn with
  | refl => simp [hj] at h
  | @step n hjn ih =>
    rcases receipts_succ ρ h with hold | ⟨r₀, hq, hn, hname, hd⟩
    · obtain ⟨hname, m, r₀, hjm, hm, hrest⟩ := ih hold
      exact ⟨hname, m, r₀, hjm, Nat.lt_succ_of_lt hm, hrest⟩
    · exact ⟨hname, n, r₀, hjn, Nat.lt_succ_self n, hq, hn, hd⟩

theorem receipt_born (h : (ρ.store n).receipts.lookup name = some r) :
    r.name = name ∧ ∃ m r₀, m < n ∧ ρ.acts m (.createReceipt r₀) ∧ r₀.name = name ∧
      r.data = r₀.data := by
  have h₀ : (ρ.store 0).receipts.lookup name = none := by
    simp [Run.store, ρ.zero, Semantics.start, World.initial]
  obtain ⟨hname, m, r₀, -, hm, hrest⟩ := receipt_born_since ρ (Nat.zero_le n) h₀ h
  exact ⟨hname, m, r₀, hm, hrest⟩

end KovaService.System
