import KovaService.Proof.Rules

/-!
Evidence does not expire: what was seen before `i` was seen before every later instant, and what a
thread has not done by `i` it has not done by `j` either, if all it did in between was to read.
-/

namespace KovaService.Protocol

open Lib Api Ledger Proof KovaService.System

variable {w : World} {ρ : w.Execution} {t i j m : Nat} {a : String} {uid : UID}

theorem Minted.mono (h : Minted ρ t i a) (hij : i ≤ j) : Minted ρ t j a := by
  obtain ⟨m, hm, hg⟩ := h
  exact ⟨m, by omega, hg⟩

theorem SawBuild.mono {P : KovaBuild → Prop} (h : SawBuild ρ m i uid P) (hij : i ≤ j) :
    SawBuild ρ m j uid P := by
  obtain ⟨k, b, hm, hk, hb⟩ := h
  exact ⟨k, b, hm, by omega, hb⟩

theorem SawLive.mono (h : SawLive ρ m i uid) (hij : i ≤ j) : SawLive ρ m j uid :=
  SawBuild.mono h hij

theorem SawLive.since (h : SawLive ρ i j uid) (hmi : m ≤ i) : SawLive ρ m j uid := by
  obtain ⟨k, b, hi, hk⟩ := h
  exact ⟨k, b, by omega, hk⟩

theorem SawNoPod.mono {name : String} (h : SawNoPod ρ m i name) (hij : i ≤ j) :
    SawNoPod ρ m j name := by
  obtain ⟨k, hm, hk, hn⟩ := h
  exact ⟨k, hm, by omega, hn⟩

theorem SawNoReceipt.mono {name : String} (h : SawNoReceipt ρ m i name) (hij : i ≤ j) :
    SawNoReceipt ρ m j name := by
  obtain ⟨k, hm, hk, hn⟩ := h
  exact ⟨k, hm, by omega, hn⟩

theorem Ended.mono (h : Ended ρ i uid) (hij : i ≤ j) : Ended ρ j uid := by
  obtain ⟨b, hb, hu⟩ := h
  exact ⟨b, versions_mono ρ hij hb, hu⟩

theorem Fenced.mono (h : Fenced ρ i uid) (hij : i ≤ j) : Fenced ρ j uid := by
  obtain ⟨k, hk, hw⟩ := h
  exact ⟨k, hk.trans_le hij, hw⟩

theorem Settled.mono (h : Settled ρ i a) (hij : i ≤ j) : Settled ρ j a := by
  obtain ⟨k, p, hk, hp⟩ := h
  exact ⟨k, p, by omega, hp⟩

theorem SawReceipt.mono {digest : String} {P : ReceiptData → Prop} (h : SawReceipt ρ i uid digest P)
    (hij : i ≤ j) : SawReceipt ρ j uid digest P := by
  obtain ⟨k, r, hk, hr⟩ := h
  exact ⟨k, r, by omega, hr⟩

theorem ReceiptsGone.mono {e : ActiveReservation} (h : ReceiptsGone ρ m i e) (hij : i ≤ j) :
    ReceiptsGone ρ m j e where
  pod := h.pod.imp_right fun hp => ⟨hp.1, hp.2.1, hp.2.2.mono hij⟩
  grant := h.grant.imp_right fun hg => ⟨hg.1, hg.2.1, hg.2.2.mono hij⟩

variable {P : Request → Prop} {P' : Request → Prop}

theorem silent_of_imp (h : ρ.silent t P i j) (hP : ∀ q, P' q → P q) : ρ.silent t P' i j :=
  fun m hi hj => ⟨fun q hs hq => (h m hi hj).1 q hs (hP q hq),
    fun q r hg hq => (h m hi hj).2 q r hg (hP q hq)⟩

variable {q : Request}

theorem isEffect.writes (h : isEffect q) : Writes q := by
  cases q <;> first | exact h.elim | exact .inl rfl

theorem isCreatePod.effect (h : isCreatePod q) : isEffect q := by
  cases q <;> first | exact h.elim | trivial

theorem Unspent.silent (h : Unspent ρ t i a P) (hij : i ≤ j) (hs : ρ.silent t P i j) :
    Unspent ρ t j a P := by
  obtain ⟨m, hm, hg, hsil⟩ := h
  exact ⟨m, by omega, hg, Run.silent_trans hsil hs⟩

theorem Unspent.calm (h : Unspent ρ t i a isEffect) (hij : i ≤ j) (hc : Calm ρ t i j) :
    Unspent ρ t j a isEffect :=
  h.silent hij (silent_of_imp hc fun _ => isEffect.writes)

theorem Unspent.imp (h : Unspent ρ t i a P) (hP : ∀ q, P' q → P q) : Unspent ρ t i a P' := by
  obtain ⟨m, hm, hg, hs⟩ := h
  exact ⟨m, hm, hg, silent_of_imp hs hP⟩

theorem Unspent.createPod (h : Unspent ρ t i a isEffect) : Unspent ρ t i a isCreatePod :=
  h.imp fun _ => isCreatePod.effect

theorem Unspent.minted (h : Unspent ρ t i a P) : Minted ρ t i a := by
  obtain ⟨m, hm, hg, -⟩ := h
  exact ⟨m, hm, hg⟩

def isArmingWrite : Request → Prop
  | .putLedger writer .. => isArming writer
  | _ => False

theorem Confirmed.silent (h : Confirmed ρ t i) (hs : ρ.silent t isArmingWrite i j) :
    Confirmed ρ t j := by
  intro m writer uid patch rv next e hm ha hg
  rcases Nat.lt_or_ge m i with hlt | hge
  · exact h m writer uid patch rv next e hlt ha hg
  · exact absurd ha ((hs m hge hm).2 _ _ hg)

theorem isArmingWrite.writes (h : isArmingWrite q) : Writes q := by
  cases q <;> first | exact h.elim | exact .inl rfl

theorem Confirmed.calm (h : Confirmed ρ t i) (hc : Calm ρ t i j) : Confirmed ρ t j :=
  h.silent (silent_of_imp hc fun _ => isArmingWrite.writes)

theorem EntryUpdate.later {e e' : ActiveReservation} {writer : LedgerWriter}
    (h : EntryUpdate ρ t m i uid e writer e') (hij : i ≤ j) (hs : ρ.silent t isEffect i j) :
    EntryUpdate ρ t m j uid e writer e' := by
  cases h with
  | beginLegacy hcl hi hl ha hg => exact .beginLegacy hcl hi (hl.mono hij) (ha.mono hij) hg
  | begin hcl hi hl ha hg hp => exact .begin hcl hi (hl.mono hij) (ha.mono hij) hg hp
  | complete hset => exact .complete (hset.mono hij)
  | completeGenesis hi hset => exact .completeGenesis hi (hset.mono hij)
  | armGrant hcl hl ho hr ha => exact .armGrant hcl (hl.mono hij) ho hr (ha.silent hij hs)
  | pinGrant ho hn hr => exact .pinGrant ho hn (hr.mono hij)
  | markGrant hu => exact .markGrant hu
  | armPod hcl hl ho hr ha => exact .armPod hcl (hl.mono hij) ho hr (ha.silent hij hs)
  | pinPod ho hn hr => exact .pinPod ho hn (hr.mono hij)
  | issue hcl hi hl ha =>
    have hpod : ρ.silent t isCreatePod i j := silent_of_imp hs fun _ => isCreatePod.effect
    exact .issue hcl hi (hl.mono hij) (ha.silent hij hpod)
  | markPod hu => exact .markPod hu

/-- A move stays justified while its thread issues no effect. -/
theorem LedgerChange.later {s next : ReservationState} {writer : LedgerWriter}
    (h : LedgerChange ρ t m i uid s writer next) (hij : i ≤ j) (hs : ρ.silent t isEffect i j) :
    LedgerChange ρ t m j uid s writer next := by
  cases h with
  | admission hb hu hn hl ha =>
    exact .admission (versions_mono ρ hij hb) hu hn (hl.mono hij) fun hg => (ha hg).mono hij
  | fence => exact .fence
  | release he hcl hi hp hd hr =>
    exact .release he hcl hi (hp.mono hij) (hd.mono hij) fun hg => (hr hg).mono hij
  | update he hu => exact .update he (hu.later hij hs)

end KovaService.Protocol
