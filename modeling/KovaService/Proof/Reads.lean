import KovaService.Proof.Quiet
import KovaService.Proof.Evidence

/-!
What the reading functions tell their callers.
-/

namespace KovaService.Proof

open Lib Api Ledger Protocol KovaService.System Controller

variable {w : World} {ρ : w.Execution} {t i j : Nat} {cfg : Config} {coord : Bool}

def Known (ρ : w.Execution) (i : Nat) (b : KovaBuild) : Prop :=
  ∃ base ∈ (ρ.store i).versions, b = { base with status := b.status }

namespace Known

variable {b : KovaBuild}

theorem of_mem (h : b ∈ (ρ.store i).versions) : Known ρ i b := ⟨b, h, rfl⟩

theorem mono (h : Known ρ i b) (hij : i ≤ j) : Known ρ j b := by
  obtain ⟨base, hb, he⟩ := h
  exact ⟨base, versions_mono ρ hij hb, he⟩

theorem uid_ne (h : Known ρ i b) : b.uid ≠ "" := by
  obtain ⟨base, hb, he⟩ := h
  rw [he]
  exact ((versions_ok ρ i).uid base hb).1

theorem key (h : Known ρ i b) : b.reservationKey = b.uid := by
  simp [KovaBuild.reservationKey, h.uid_ne]

theorem requestID (h : Known ρ i b) : (w.reconciler cfg coord).requestID b = b.uid := by
  simp [Reconciler.requestID, h.uid_ne]

end Known

def ReadBuild (ρ : w.Execution) (t i j : Nat) (name : String) (b : KovaBuild) : Prop :=
  ∃ m, i < m ∧ m < j ∧ ρ.gets m t (.getBuild name) (.ok b)

theorem ReadBuild.stored {name : String} {b : KovaBuild} (h : ReadBuild ρ t i j name b) :
    ∃ m, i < m ∧ m < j ∧ (ρ.store m).builds.lookup name = some b ∧ b.name = name ∧
      b ∈ (ρ.store m).versions := by
  obtain ⟨m, hi, hj, hg⟩ := h
  have hl := getBuild_answer hg
  obtain ⟨hv, hn⟩ := (versions_ok ρ m).current name b hl
  exact ⟨m, hi, hj, hl, hn, hv⟩

theorem ReadBuild.known {name : String} {b : KovaBuild} (h : ReadBuild ρ t i j name b) :
    b ∈ (ρ.store j).versions := by
  obtain ⟨m, -, hj, -, -, hv⟩ := h.stored
  exact versions_mono ρ (by omega) hv

theorem getBuild_does (name : String) : Does ρ t (getBuild name) i
    (fun b j => ReadBuild ρ t i j name b) := by
  refine Does.request rfl (fun _ _ _ => trivial) ?_ fun _ _ _ _ _ _ => trivial
  rintro m _ b hm hg rfl
  exact ⟨m, hm, by omega, hg⟩

def LedgerRead (ρ : w.Execution) (i j : Nat) (cm : LedgerMap) : Prop :=
  ∃ m, i < m ∧ m < j ∧ cm = (ρ.store m).ledger

theorem getLedger_does : Does ρ t getLedger i (fun cm j => LedgerRead ρ i j cm) := by
  refine Does.request rfl (fun _ _ _ => trivial) ?_ fun _ _ _ _ _ _ => trivial
  rintro m _ cm hm hg rfl
  exact ⟨m, hm, by omega, getLedger_answer hg⟩

theorem LedgerRead.mono {i' j' : Nat} {cm : LedgerMap} (h : LedgerRead ρ i j cm) (hi : i' ≤ i)
    (hj : j ≤ j') : LedgerRead ρ i' j' cm := by
  obtain ⟨m, h1, h2, he⟩ := h
  exact ⟨m, by omega, by omega, he⟩

theorem readLedger_does : Does ρ t (w.reconciler cfg coord).readLedger i
    (fun cm j => LedgerRead ρ i j cm) := by
  unfold Reconciler.readLedger
  refine getLedger_does.andThen fun cm j _ hcm => ?_
  split
  · exact .pure hcm
  · exact .decoded fun _ _ => .pure hcm

theorem observedRead_does {α : Type} {p : K α} {observed : Bool} {Post : α → Nat → Prop}
    {Fail : Err → Nat → Prop} (h : ∀ j, i ≤ j → Does ρ t p j Post Fail) :
    Does ρ t (observedRead observed p) i Post :=
  Does.andThen (quiet_onlyIf quiet_ctxErr).does fun _ j hj _ => (h j hj).imp fun _ _ _ hp => hp

theorem readReservationsWith_does (observed : Bool) :
    Does ρ t ((w.reconciler cfg coord).readReservationsWith observed) i
      (fun cm j => LedgerRead ρ i j cm) := by
  unfold Reconciler.readReservationsWith
  refine Does.andThen (quiet_onlyIf quiet_genesisCheck).does fun _ j hj _ => ?_
  refine .check fun _ => ?_
  have h : ∀ k, j ≤ k → Does ρ t (w.reconciler cfg coord).readLedger k
      (fun cm l => LedgerRead ρ i l cm) :=
    fun k hk => readLedger_does.imp fun cm l _ h => h.mono (hj.trans hk) le_rfl
  refine (observedRead_does h).andThen fun cm k _ hcm => ?_
  exact .decoded fun _ _ => .pure hcm

theorem readReservations_does : Does ρ t (w.reconciler cfg coord).readReservations i
    (fun cm j => LedgerRead ρ i j cm) :=
  readReservationsWith_does false

theorem ensureLiveAdmissionBuild_does (build : KovaBuild) :
    Does ρ t ((w.reconciler cfg coord).ensureLiveAdmissionBuild build) i
      (fun _ j => SawLive ρ i j build.uid) := by
  unfold Reconciler.ensureLiveAdmissionBuild
  refine (getBuild_does _).andThen fun current j _ hc => ?_
  obtain ⟨m, hi, hj, hl, hn, -⟩ := hc.stored
  refine .lastCheck fun h => ?_
  simp only [Bool.or_eq_false_iff, bne_eq_false_iff_eq, Bool.not_eq_false'] at h
  exact ⟨m, current, hi, hj, hn ▸ hl, h.1, h.2⟩

def PodRead (ρ : w.Execution) (i j : Nat) (build : KovaBuild) : Option Pod → Prop
  | none => ∃ m, i < m ∧ m < j ∧ (ρ.store m).pods.lookup (buildPodName build.name) = none
  | some p => p.ownedByBuild build = true ∧
    ∃ m, i < m ∧ m < j ∧ (ρ.store m).pods.lookup (buildPodName build.name) = some p

theorem getPod_does (name : String) : Does ρ t (getPod name) i
    (fun p j => ∃ m, i < m ∧ m < j ∧ (ρ.store m).pods.lookup name = some p)
    (fun e j => e.isNotFound →
      ∃ m, i < m ∧ m < j ∧ (ρ.store m).pods.lookup name = none) := by
  refine Does.request rfl (fun _ _ _ => trivial) ?_ ?_
  · rintro m _ p hm hg rfl
    exact ⟨m, hm, by omega, getPod_answer hg⟩
  · rintro m _ e hm hg rfl he
    exact ⟨m, hm, by omega, getPod_absent hg he⟩

theorem getOwnedPod_does (build : KovaBuild) :
    Does ρ t ((w.reconciler cfg coord).getOwnedPod build) i
      (fun o j => PodRead ρ i j build o) := by
  unfold Reconciler.getOwnedPod
  refine (getPod_does _).attempt (fun p j _ hp => ?_) fun e j _ he => ?_
  · refine .check fun h => .pure ⟨?_, hp⟩
    simpa using h
  · show Does ρ t (if e.isNotFound = true then _ else _) j _ _
    split
    · next hn => exact .pure (he hn)
    · exact .throw trivial

theorem getReceipt_does (name : String) : Does ρ t (getReceipt name) i
    (fun r j => ∃ m, i < m ∧ m < j ∧ ρ.gets m t (.getReceipt name) (.ok r))
    (fun e j => e.isNotFound →
      ∃ m, i < m ∧ m < j ∧ (ρ.store m).receipts.lookup name = none) := by
  refine Does.request rfl (fun _ _ _ => trivial) ?_ ?_
  · rintro m _ r hm hg rfl
    exact ⟨m, hm, by omega, hg⟩
  · rintro m _ e hm hg rfl he
    exact ⟨m, hm, by omega, getReceipt_absent hg he⟩

/-- `Observe` ends with reads, so what its body established must outlast them. -/
theorem observe_does {α : Type} {p : K α} {Post : α → Nat → Prop}
    (hmono : ∀ a k j, k ≤ j → Post a k → Post a j) (h : ∀ j, i ≤ j → Does ρ t p j Post) :
    Does ρ t (observe p) i Post := by
  unfold observe
  refine quiet_genesisCheck.does.andThen fun _ j hj _ => ?_
  refine (h j hj).attempt (fun a k _ hP => ?_) fun e k _ _ => ?_
  · refine (quiet_attempt quiet_ctxErr).does.andThen fun live l hl _ => ?_
    refine (quiet_attempt quiet_genesisCheck).does.andThen fun check n hn _ => ?_
    split
    · exact .throw trivial
    · exact .pure (hmono a k n (hl.trans hn) hP)
  · refine (quiet_attempt quiet_ctxErr).does.andThen fun live l _ _ => ?_
    refine (quiet_attempt quiet_genesisCheck).does.andThen fun check n _ _ => ?_
    split
    · exact .throw trivial
    · exact .throw trivial

theorem newNonce_does : Does ρ t newNonce i (fun a j => Unspent ρ t j a Writes ∧ Calm ρ t i j) := by
  have h : Does ρ t newNonce i (fun a j => ∃ m, i < m ∧ m < j ∧ ρ.gets m t .nonce (.ok a)) := by
    refine Does.request rfl (fun _ _ _ => trivial) ?_ fun _ _ _ _ _ _ => trivial
    rintro m _ a hm hg rfl
    exact ⟨m, hm, by omega, hg⟩
  refine (h.quietly quiet_newNonce).imp fun a j _ ⟨⟨m, hm, hj, hg⟩, hc⟩ => ⟨⟨m, hj, hg, ?_⟩, hc⟩
  exact fun k hk hkj => hc k (by omega) hkj

end KovaService.Proof
