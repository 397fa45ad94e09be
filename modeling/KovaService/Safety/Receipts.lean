import KovaService.Safety.Attempts

/-!
The receipts of an entry are never orphaned.

The grant receipt and the Pod receipt go through the same stations: armed in the ledger, created,
pinned, marked for cleanup, deleted.  `EntryReceipt` names the fields each of them uses, and every
result is proved for both at once.
-/

namespace KovaService.Safety

open Lib Api Ledger Protocol Proof KovaService.System

inductive EntryReceipt where
  | grant
  | podCreate

namespace EntryReceipt

variable {x : EntryReceipt}

def of : EntryReceipt → UID → String → ReceiptData → Prop
  | grant => grantOf
  | podCreate => podCreateOf

def nonce : EntryReceipt → ActiveReservation → String
  | grant, e => e.grantNonce
  | podCreate, e => e.podAttemptNonce

def armed : EntryReceipt → ActiveReservation → Prop
  | grant, e => e.grantObservedRV ≠ ""
  | podCreate, e => e.podTemplateDigest ≠ ""

def uid : EntryReceipt → ActiveReservation → UID
  | grant, e => e.grantReceiptUID
  | podCreate, e => e.podReceiptUID

def digest : EntryReceipt → ActiveReservation → String
  | grant, e => e.grantReceiptDigest
  | podCreate, e => e.podReceiptDigest

def marked : EntryReceipt → ActiveReservation → Bool
  | grant, e => e.grantCleanupReady
  | podCreate, e => e.podCleanupReady

def name (x : EntryReceipt) (a : String) : String :=
  match x with
  | grant => grantReceiptPrefix ++ a
  | podCreate => podReceiptPrefix ++ a

def marker : EntryReceipt → LedgerWriter
  | grant => .releaseGrantReceipt
  | podCreate => .releasePodReceipt

variable {a : String}

theorem name_of {u : UID} {d : ReceiptData} (h : x.of u a d) : d.receiptName = x.name a := by
  cases x <;> cases d <;> simp_all [of, grantOf, podCreateOf, name, ReceiptData.receiptName]

theorem uid_of {u u' : UID} {a' : String} {d : ReceiptData} (h : x.of u a d) (h' : x.of u' a' d) :
    u' = u := by
  cases x <;> cases d <;> simp_all [of, grantOf, podCreateOf]

theorem name_inj {a' : String} (h : x.name a = x.name a') : a = a' := by
  have hl := congrArg String.toList h
  cases x <;> simpa [name, String.ext_iff] using hl

theorem name_ne_queue {a' : String} : x.name a ≠ queueReceiptPrefix ++ a' := by
  intro h
  have hl := congrArg String.toList h
  cases x <;> simp [name, grantReceiptPrefix, podReceiptPrefix, queueReceiptPrefix] at hl

theorem grant_ne_podCreate {a' : String} : name grant a ≠ name podCreate a' := by
  intro h
  have hl := congrArg String.toList h
  simp [name, grantReceiptPrefix, podReceiptPrefix] at hl

end EntryReceipt

variable {w : World} {ρ : w.Execution} {n m k t : Nat} {uid : UID} {x : EntryReceipt} {a : String}
  {e e' : ActiveReservation}

theorem Grows.armed (h : Grows e e') (ha : x.armed e) : x.armed e' := by
  cases x with
  | grant => exact fun hne => ha ((h.grantObservedRV ha).symm.trans hne)
  | podCreate => exact fun hne => ha ((h.podTemplateDigest ha).symm.trans hne)

theorem receipt_consistent (he : entryAt ρ n uid = some e) (hp : x.armed e ∨ x.uid e ≠ "") :
    w.genesis.isSome ∧ x.armed e ∧ (x = .podCreate → e.podAttemptNonce ≠ "") := by
  have hv := ledger_valid ρ n
  rcases hv.version with h1 | h2
  · have hl := hv.legacy h1 uid e he
    simp only [ActiveReservation.legacy, Bool.and_eq_true, beq_iff_eq] at hl
    cases x <;> simp_all [EntryReceipt.armed, EntryReceipt.uid]
  · have hg : w.genesis.isSome := by
      by_contra hn
      have hh := (ledger_header ρ n).1
      simp [World.initial, hn, ReservationState.freshReservations, h2] at hh
    obtain ⟨hgr, hpo⟩ := hv.genesis h2 uid e he
    simp only [ActiveReservation.grantConsistent, Bool.and_eq_true, Bool.or_eq_true, beq_iff_eq,
      bne_iff_ne, ne_eq] at hgr
    simp only [ActiveReservation.podConsistent, Bool.and_eq_true, Bool.or_eq_true, beq_iff_eq,
      bne_iff_ne, ne_eq] at hpo
    refine ⟨hg, ?_⟩
    cases x with
    | grant =>
      refine ⟨hp.elim (fun h => h) fun h => ?_, fun h => by cases h⟩
      exact (hgr.1.2.resolve_left h).1.1
    | podCreate =>
      have harm : e.podTemplateDigest ≠ "" := by
        refine hp.elim (fun h => h) fun h hd => ?_
        exact h (hpo.1.1.1.1.1.2.resolve_left (fun hne => hne hd)).1.1.1
      exact ⟨harm, fun _ h => harm (hpo.1.1.1.1.1.1.1.resolve_left (fun hne => hne h)).1.1.1.1⟩

theorem nonce_stays (hmn : m ≤ n) (he : entryAt ρ m uid = some e) (he' : entryAt ρ n uid = some e')
    (ha : x.armed e) : x.nonce e' = x.nonce e := by
  have hg := entry_grows hmn he he'
  cases x with
  | grant => exact hg.grantNonce
  | podCreate => exact hg.podAttemptNonce ((receipt_consistent he (.inl ha)).2.2 rfl)

variable {writer : LedgerWriter}

theorem EntryMove.pin (h : EntryMove ρ t m k uid writer (some e) (some e')) (hn : x.uid e = "")
    (hp : x.uid e' ≠ "") :
    SawReceipt ρ k (x.uid e') (x.digest e') (x.of uid (x.nonce e')) := by
  cases h with
  | fence => cases x <;> exact absurd hn hp
  | update h =>
    cases x with
    | grant =>
      cases h with
      | pinGrant _ _ hr => exact hr
      | _ => exact absurd hn hp
    | podCreate =>
      cases h with
      | pinPod _ _ hr => exact hr
      | _ => exact absurd hn hp

theorem EntryMove.mark (h : EntryMove ρ t m k uid writer (some e) (some e'))
    (hn : x.marked e = false) (hp : x.marked e') : writer = x.marker := by
  cases h with
  | fence => cases x <;> exact absurd (hn.symm.trans hp) Bool.false_ne_true
  | update h => cases x <;> cases h <;> first | rfl | cases hn.symm.trans hp

theorem EntryMove.admission_bare (h : EntryMove ρ t m k uid writer none (some e)) :
    x.uid e = "" ∧ x.marked e = false := by
  cases h
  cases x <;> exact ⟨rfl, rfl⟩

theorem pinned_seen (he : entryAt ρ n uid = some e) (hp : x.uid e ≠ "") :
    SawReceipt ρ n (x.uid e) (x.digest e) (x.of uid (x.nonce e)) := by
  obtain ⟨j, m, k, t, writer, e₀, e₁, hj, hc, hmove, h₀, h₁, he₁⟩ :=
    entry_became (P := fun e => x.uid e ≠ "") he hp fun h => not_not.mpr h.admission_bare.1
  have hg := entry_grows hj he₁ he
  have hpin : x.uid e = x.uid e₁ ∧ x.digest e = x.digest e₁ := by
    cases x with
    | grant => exact hg.grantReceipt h₁
    | podCreate => exact hg.podReceipt h₁
  rw [hpin.1, hpin.2, nonce_stays hj he₁ he (receipt_consistent he₁ (.inr h₁)).2.1]
  exact (hmove.pin (not_not.mp h₀) h₁).mono (hc.before.2.le.trans hj.le)

theorem marked_committed (he : entryAt ρ n uid = some e) (hp : x.marked e) :
    ∃ j m k t, j < n ∧ LedgerCommit ρ j m k t x.marker uid := by
  obtain ⟨j, m, k, t, writer, e₀, e₁, hj, hc, hmove, h₀, h₁, -⟩ :=
    entry_became (P := fun e => x.marked e) he hp fun h => by simp [h.admission_bare.2]
  rw [hmove.mark (by simpa using h₀) h₁] at hc
  exact ⟨j, m, k, t, hj, hc⟩

def createsReceipt (x : EntryReceipt) (uid : UID) (a : String) : Request → Prop
  | .createReceipt r => x.of uid a r.data
  | _ => False

variable {r : Receipt}

theorem receipt_sent (hs : ρ.sends n t (.createReceipt r)) (hr : x.of uid a r.data) :
    r.name = x.name a ∧ Unspent ρ t n a isEffect ∧
      ∃ m e, m ≤ n ∧ entryAt ρ m uid = some e ∧ x.nonce e = a ∧ x.armed e := by
  obtain ⟨hname, hd⟩ := sends_demanded ρ n t _ hs
  rw [EntryReceipt.name_of hr] at hname
  refine ⟨hname, ?_⟩
  cases x with
  | grant =>
    cases hdata : r.data with
    | grant g =>
      rw [hdata] at hr hd
      obtain ⟨rfl, rfl⟩ := hr
      obtain ⟨⟨m, e, hm, he, hn, ha⟩, hu, -⟩ := hd
      exact ⟨hu, m, e, hm, he, hn, ha⟩
    | podCreate | queue =>
      rw [hdata] at hr
      exact hr.elim
  | podCreate =>
    cases hdata : r.data with
    | podCreate p =>
      rw [hdata] at hr hd
      obtain ⟨rfl, rfl⟩ := hr
      obtain ⟨⟨m, e, hm, he, hn, ha⟩, hu, -⟩ := hd
      exact ⟨hu, m, e, hm, he, hn, ha⟩
    | grant | queue =>
      rw [hdata] at hr
      exact hr.elim

theorem createsReceipt_once (x : EntryReceipt) (uid : UID) (a : String) : ∀ n t q n' t' q',
    ρ.sends n t q → createsReceipt x uid a q → ρ.sends n' t' q' → createsReceipt x uid a q' →
      n = n' := by
  intro n t q n' t' q' hs hq hs' hq'
  cases q with
  | createReceipt r =>
    cases q' with
    | createReceipt r' =>
      exact unspent_once (receipt_sent hs hq).2.1 hs trivial (receipt_sent hs' hq').2.1 hs' trivial
    | _ => exact hq'.elim
  | _ => exact hq.elim

theorem arrived_last {r' : Receipt} {id : Nat} (ha : ρ.acts m (.createReceipt r))
    (hr : x.of uid a r.data) (hm : m < n) (hw : (id, Request.createReceipt r') ∈ (ρ.state n).wire) :
    ¬ x.of uid a r'.data := by
  obtain ⟨id', c, ans, he⟩ := effect_of_acts ρ ha rfl
  exact he.last (createsReceipt_once x uid a) hr rfl hm hw

theorem arrived_once {r' : Receipt} (ha : ρ.acts m (.createReceipt r)) (hr : x.of uid a r.data)
    (hm : m < n) (ha' : ρ.acts n (.createReceipt r')) : ¬ x.of uid a r'.data := by
  obtain ⟨id', c, ans, he⟩ := effect_of_acts ρ ha' rfl
  exact arrived_last ha hr hm he.1

/-- An armed receipt of an entry that is released: it had arrived before the releaser read the
ledger, and was seen to be gone after. -/
theorem removal_receipt (hr : Removal ρ n m k t uid e) (ha : x.armed e) :
    x.uid e ≠ "" ∧ x.marked e ∧ SawNoReceipt ρ m k (x.name (x.nonce e)) ∧
      SawReceipt ρ m (x.uid e) (x.digest e) (x.of uid (x.nonce e)) := by
  have hgone := hr.receipts (receipt_consistent hr.entry (.inl ha)).1
  have hread : entryAt ρ m uid = some e := by
    rw [entryAt, hr.commit.read m le_rfl (hr.commit.before.1.trans hr.commit.before.2).le]
    exact hr.entry
  have hthree : x.uid e ≠ "" ∧ x.marked e = true ∧ SawNoReceipt ρ m k (x.name (x.nonce e)) := by
    cases x with
    | grant => exact hgone.grant.resolve_left ha
    | podCreate => exact hgone.pod.resolve_left ha
  exact ⟨hthree.1, hthree.2.1, hthree.2.2, pinned_seen hread hthree.1⟩

theorem removal_arrived (hr : Removal ρ n m k t uid e) (ha : x.armed e) :
    ∃ i r, i < m ∧ ρ.acts i (.createReceipt r) ∧ x.of uid (x.nonce e) r.data := by
  obtain ⟨-, -, -, i, r, hi, hl, -, -, hof⟩ := removal_receipt hr ha
  obtain ⟨-, j, r₀, hj, hact, -, hdata⟩ := receipt_born ρ hl
  exact ⟨j, r₀, hj.trans hi, hact, hdata ▸ hof⟩

theorem wire_covered {id : Nat} (hw : (id, Request.createReceipt r) ∈ (ρ.state n).wire)
    (hr : x.of uid a r.data) :
    ∃ e, entryAt ρ n uid = some e ∧ x.nonce e = a ∧ x.armed e := by
  obtain ⟨-, j, t, hj, hs, -⟩ := ρ.wire_sent n id _ hw
  obtain ⟨-, -, m, e, hm, he, rfl, ha⟩ := receipt_sent hs hr
  have hmn : m ≤ n := by omega
  have hsome : ∃ e', entryAt ρ n uid = some e' := by
    refine Option.ne_none_iff_exists'.mp fun hnone => ?_
    obtain ⟨i, m', k', t', e₁, hmi, hin, he₁, -, hrem⟩ := entry_lost he hmn hnone
    have ha₁ : x.armed e₁ := (entry_grows hmi he he₁).armed ha
    obtain ⟨i', r', hi', hact, hof⟩ := removal_arrived hrem ha₁
    rw [nonce_stays hmi he he₁ ha] at hof
    have hb := hrem.commit.before
    exact arrived_last hact hof (by omega) hw hr
  obtain ⟨e', he'⟩ := hsome
  exact ⟨e', he', nonce_stays hmn he he' ha, (entry_grows hmn he he').armed ha⟩

theorem stored_covered {name : String} (hl : (ρ.store n).receipts.lookup name = some r)
    (hr : x.of uid a r.data) :
    ∃ e, entryAt ρ n uid = some e ∧ x.nonce e = a ∧ x.armed e := by
  induction n with
  | zero => simp [Run.store, ρ.zero, Semantics.start, World.initial] at hl
  | succ n ih =>
    -- the entry was there at `n`; it stays unless it is released just then
    have hstep : (∃ e, entryAt ρ n uid = some e ∧ x.nonce e = a ∧ x.armed e) →
        (∀ m k t e, Removal ρ n m k t uid e → x.nonce e = a → x.armed e → False) →
        ∃ e, entryAt ρ (n + 1) uid = some e ∧ x.nonce e = a ∧ x.armed e := by
      rintro ⟨e, he, rfl, ha⟩ hno
      cases he' : entryAt ρ (n + 1) uid with
      | none =>
        obtain ⟨m, k, t, hrem⟩ := entry_removed he he'
        exact (hno m k t e hrem rfl ha).elim
      | some e' =>
        exact ⟨e', rfl, nonce_stays (Nat.le_succ n) he he' ha, (entry_grows_succ he he').armed ha⟩
    rcases receipts_succ ρ hl with hold | ⟨r₀, hact, -, -, hdata⟩
    · refine hstep (ih hold) fun m k t e hrem hn ha => ?_
      obtain ⟨i, r', hi, hact, hof⟩ := removal_arrived hrem ha
      obtain ⟨-, -, ⟨j, hmj, hjk, hnone⟩, -⟩ := removal_receipt hrem ha
      have hname : name = x.name (x.nonce e) := by
        obtain ⟨-, i₀, r₀, hi₀, hact₀, hn₀, hd₀⟩ := receipt_born ρ hold
        obtain ⟨j₀, t₀, hj₀, hs₀, -⟩ := acts_demanded hact₀ rfl
        rw [← hn₀, hn, (receipt_sent hs₀ (hd₀ ▸ hr)).1]
      rw [← hname] at hnone
      have hb := hrem.commit.before
      obtain ⟨-, i₁, r₁, hji, -, hact₁, -, hd₁⟩ := receipt_born_since ρ (by omega) hnone hold
      rw [hn] at hof
      exact arrived_once hact hof (by omega) hact₁ (hd₁ ▸ hr)
    · obtain ⟨id, c, ans, heff⟩ := effect_of_acts ρ hact rfl
      refine hstep (wire_covered heff.1 (hdata ▸ hr)) fun m k t e hrem hn ha => ?_
      obtain ⟨i, r', hi, hact', hof⟩ := removal_arrived hrem ha
      have hb := hrem.commit.before
      rw [hn] at hof
      exact arrived_once hact' hof (by omega) hact (hdata ▸ hr)

/-- The end of a receipt of an entry that is released at `n`: it existed with the pinned UID and
digest, the mark for cleanup was committed, it was deleted under its UID, and then it was absent. -/
structure CleanedUp (ρ : w.Execution) (n : Nat) (x : EntryReceipt) (uid : UID)
    (e : ActiveReservation) : Prop where
  pinned : x.uid e ≠ ""
  marked : x.marked e
  stations : ∃ i j d k r, i ≤ d ∧ j < d ∧ d < k ∧ k < n ∧
    ((ρ.store i).receipts.lookup (x.name (x.nonce e)) = some r ∧ r.uid = x.uid e ∧
      w.ext.dataDigest r.data = x.digest e ∧ x.of uid (x.nonce e) r.data) ∧
    (∃ m' k' t', LedgerCommit ρ j m' k' t' x.marker uid) ∧
    ρ.acts d (.deleteReceipt (x.name (x.nonce e)) (x.uid e)) ∧
    (ρ.store k).receipts.lookup (x.name (x.nonce e)) = none

theorem deletion_marked {i d : Nat} (hl : (ρ.store i).receipts.lookup (x.name a) = some r)
    (hr : x.of uid a r.data)
    (hd : ρ.acts d (.deleteReceipt (x.name a) r.uid)) (hne : r.uid ≠ "") :
    ∃ j e, j < d ∧ entryAt ρ j uid = some e ∧ x.marked e := by
  obtain ⟨j, t, hj, -, hdem⟩ := acts_demanded hd rfl
  have hentry : ∃ m key e, m ≤ j ∧ entryAt ρ m key = some e ∧ a = x.nonce e ∧
      x.marked e ∧ r.uid = x.uid e := by
    rcases hdem with ⟨_, _, _, _, _, hq, -⟩ | ⟨m, key, e, hm, he, ⟨hn, hmark, hu⟩ | ⟨hn, hmark, hu⟩⟩
    · exact absurd hq EntryReceipt.name_ne_queue
    · cases x with
      | grant => exact ⟨m, key, e, hm, he, EntryReceipt.name_inj (x := .grant) hn, hmark, hu⟩
      | podCreate => exact absurd hn.symm EntryReceipt.grant_ne_podCreate
    · cases x with
      | grant => exact absurd hn EntryReceipt.grant_ne_podCreate
      | podCreate => exact ⟨m, key, e, hm, he, EntryReceipt.name_inj (x := .podCreate) hn, hmark, hu⟩
  obtain ⟨m, key, e, hm, he, rfl, hmark, hu⟩ := hentry
  -- the receipt pinned there is this one: both came from the one Create with this nonce
  obtain ⟨i', r', -, hl', -, -, hr'⟩ := pinned_seen he (hu ▸ hne)
  obtain ⟨-, i₁, r₁, -, hact₁, -, hd₁⟩ := receipt_born ρ hl
  obtain ⟨-, i₂, r₂, -, hact₂, -, hd₂⟩ := receipt_born ρ hl'
  obtain ⟨j₁, t₁, -, hs₁, -⟩ := acts_demanded hact₁ rfl
  obtain ⟨j₂, t₂, -, hs₂, -⟩ := acts_demanded hact₂ rfl
  rw [hd₁] at hr
  rw [hd₂] at hr'
  have hj₁ := unspent_once (receipt_sent hs₁ hr).2.1 hs₁ trivial (receipt_sent hs₂ hr').2.1 hs₂ trivial
  subst hj₁
  obtain ⟨-, hq⟩ := hs₁.unique hs₂
  cases hq
  exact ⟨m, e, by omega, EntryReceipt.uid_of hr hr' ▸ he, hmark⟩

theorem removal_cleanedUp (hr : Removal ρ n m k t uid e) (ha : x.armed e) :
    CleanedUp ρ n x uid e := by
  obtain ⟨hpin, hmark, ⟨j, hmj, hjk, hnone⟩, i, r, him, hl, hu, hdig, hof⟩ := removal_receipt hr ha
  rw [EntryReceipt.name_of hof] at hl
  obtain ⟨d, hid, hdj, hd, hd'⟩ := exists_last_instant
    (P := fun i => (ρ.store i).receipts.lookup (x.name (x.nonce e)) = some r)
    (by omega : i ≤ j) hl (by simp [hnone])
  have hact := receipt_removed ρ hd hd'
  obtain ⟨j₁, e₁, hj₁, he₁, hmark₁⟩ := deletion_marked hl hof hact (hu ▸ hpin)
  obtain ⟨j₀, m₀, k₀, t₀, hj₀, hc₀⟩ := marked_committed he₁ hmark₁
  have hb := hr.commit.before
  exact ⟨hpin, hmark, i, j₀, d, j, r, hid, by omega, hdj, by omega, ⟨hl, hu, hdig, hof⟩,
    ⟨m₀, k₀, t₀, hc₀⟩, hu ▸ hact, hnone⟩

/-- In every run and at every instant: a grant receipt or Pod receipt that exists, or a Create of
which can still take effect, has its nonce in the entry of its build; and an entry is removed only
when each of its receipts was never armed, or was pinned, marked for cleanup by a committed write,
deleted under its UID and then seen to be absent. -/
theorem receipts_never_orphaned (ρ : w.Execution) (n : Nat) :
    (∀ x uid a name r, (ρ.store n).receipts.lookup name = some r → EntryReceipt.of x uid a r.data →
      ∃ e, (ρ.store n).ledger.data.active.lookup uid = some e ∧ x.nonce e = a) ∧
    (∀ x uid a id r, (id, Request.createReceipt r) ∈ (ρ.state n).wire →
      EntryReceipt.of x uid a r.data →
      ∃ e, (ρ.store n).ledger.data.active.lookup uid = some e ∧ x.nonce e = a) ∧
    ∀ uid e, (ρ.store n).ledger.data.active.lookup uid = some e →
      (ρ.store (n + 1)).ledger.data.active.lookup uid = none →
      ∀ x : EntryReceipt, ¬ x.armed e ∨ CleanedUp ρ n x uid e := by
  refine ⟨fun x uid a name r hl hr => ?_, fun x uid a id r hw hr => ?_, fun uid e he he' x => ?_⟩
  · obtain ⟨e, he, hn, -⟩ := stored_covered hl hr
    exact ⟨e, he, hn⟩
  · obtain ⟨e, he, hn, -⟩ := wire_covered hw hr
    exact ⟨e, he, hn⟩
  · obtain ⟨m, k, t, hrem⟩ := entry_removed he he'
    by_cases ha : x.armed e
    · exact .inr (removal_cleanedUp hrem ha)
    · exact .inl ha

end KovaService.Safety
