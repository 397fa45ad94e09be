import KovaService.Ledger.Reservation

/-!
Accepted ledgers of version 2, and the ways of changing one that keep it accepted: another value for
an entry that takes no more capacity, a new entry within the limits, the removal of an entry.
-/

namespace KovaService.Ledger

open Api

variable {digest : String}

/-- The grant of an entry of version 2: armed, then receipted, then marked for cleanup. -/
structure GrantStage (e : ActiveReservation) : Prop where
  nonce : validReservationHex e.grantNonce 32
  fence : e.grantFence ≠ 0
  observed : e.grantObservedRV ≠ "" → validGrantObservedRV e.grantObservedRV
  link : e.grantReceiptUID = "" ↔ e.grantReceiptDigest = ""
  receipt : e.grantReceiptUID ≠ "" → e.grantObservedRV ≠ "" ∧
    validReceiptUID e.grantReceiptUID ∧ digestSHA256 e.grantReceiptDigest
  cleanup : e.grantCleanupReady → e.closing ∧ e.inFlight = [] ∧
    e.grantReceiptUID ≠ "" ∧ (e.podTemplateDigest ≠ "" → e.podCleanupReady)

variable {e : ActiveReservation}

theorem grantConsistent_iff : e.grantConsistent ↔ GrantStage e := by
  simp only [ActiveReservation.grantConsistent, Bool.and_eq_true, Bool.or_eq_true, beq_iff_eq,
    bne_iff_ne, Bool.not_eq_true']
  constructor
  · rintro ⟨⟨⟨⟨⟨h1, h2⟩, h3⟩, h4⟩, h5⟩, h6⟩
    exact ⟨h1, h2, h3.resolve_left, by simpa using h4,
      fun h => ⟨(h5.resolve_left h).1.1, (h5.resolve_left h).1.2, (h5.resolve_left h).2⟩,
      fun h => by simp_all [imp_iff_not_or]⟩
  · rintro ⟨h1, h2, h3, h4, h5, h6⟩
    refine ⟨⟨⟨⟨⟨h1, h2⟩, or_iff_not_imp_left.mpr h3⟩, by simpa using h4⟩,
      or_iff_not_imp_left.mpr fun h => ⟨⟨(h5 h).1, (h5 h).2.1⟩, (h5 h).2.2⟩⟩, ?_⟩
    cases hc : e.grantCleanupReady with
    | false => exact .inl rfl
    | true => exact .inr (by simp_all [imp_iff_not_or])

/-- The Pod attempt of an entry of version 2: spent, armed, receipted, issued, marked. -/
structure PodStage (e : ActiveReservation) : Prop where
  nonce : e.podAttemptNonce ≠ "" → validReservationHex e.podAttemptNonce 32
  template : e.podTemplateDigest ≠ "" →
    e.podAttemptNonce ≠ "" ∧ digestSHA256 e.podTemplateDigest ∧ e.grantReceiptUID ≠ ""
  link : e.podReceiptUID = "" ↔ e.podReceiptDigest = ""
  receipt : e.podReceiptUID ≠ "" → e.podTemplateDigest ≠ "" ∧
    validReceiptUID e.podReceiptUID ∧ digestSHA256 e.podReceiptDigest
  issued : ∀ nonce ∈ e.inFlight, nonce = e.podAttemptNonce ∧ e.podReceiptUID ≠ ""
  cleanup : e.podCleanupReady → e.closing ∧ e.inFlight = [] ∧ e.podReceiptUID ≠ ""

theorem podConsistent_iff : e.podConsistent ↔ PodStage e := by
  simp only [ActiveReservation.podConsistent, Bool.and_eq_true, Bool.or_eq_true, beq_iff_eq,
    bne_iff_ne, Bool.not_eq_true', List.all_eq_true]
  constructor
  · rintro ⟨⟨⟨⟨⟨⟨⟨h1, h2⟩, h3⟩, h4⟩, h5⟩, h6⟩, h7⟩, h8⟩
    refine ⟨h2.resolve_left, fun h => ⟨?_, (h4.resolve_left h).1, (h4.resolve_left h).2⟩,
      by simpa using h5, fun h => ⟨?_, (h6.resolve_left h).1, (h6.resolve_left h).2⟩, h7,
      fun h => by simp_all⟩
    · exact h1.resolve_right fun hx => h hx.1.1.1.1
    · exact h3.resolve_right fun hx => h hx.1.1.1
  · rintro ⟨h2, h4, h5, h6, h7, h8⟩
    have hreceipt : e.podTemplateDigest = "" → e.podReceiptUID = "" := fun h =>
      not_not.mp fun hr => (h6 hr).1 h
    have hclean : e.podReceiptUID = "" → e.podCleanupReady = false := fun h =>
      Bool.eq_false_iff.mpr fun hc => (h8 hc).2.2 h
    have hflight : e.podReceiptUID = "" → e.inFlight = [] := fun h =>
      List.eq_nil_iff_forall_not_mem.mpr fun a ha => (h7 a ha).2 h
    have htemplate : e.podAttemptNonce = "" → e.podTemplateDigest = "" := fun h =>
      not_not.mp fun ht => (h4 ht).1 h
    refine ⟨⟨⟨⟨⟨⟨⟨or_iff_not_imp_left.mpr fun h => ?_, or_iff_not_imp_left.mpr h2⟩,
      or_iff_not_imp_left.mpr fun h => ?_⟩, or_iff_not_imp_left.mpr fun h => (h4 h).2⟩,
      by simpa using h5⟩, or_iff_not_imp_left.mpr fun h => (h6 h).2⟩, h7⟩, ?_⟩
    · have ht := htemplate (not_not.mp h)
      have hr := hreceipt ht
      exact ⟨⟨⟨⟨ht, hr⟩, h5.mp hr⟩, hclean hr⟩, hflight hr⟩
    · have hr := hreceipt (not_not.mp h)
      exact ⟨⟨⟨hr, h5.mp hr⟩, hclean hr⟩, hflight hr⟩
    · cases hc : e.podCleanupReady with
      | false => exact .inl rfl
      | true => exact .inr ⟨⟨(h8 hc).1, (h8 hc).2.1⟩, (h8 hc).2.2⟩

variable {uid : UID} {rv : String}

namespace ReservationState

variable {s : ReservationState} {key : String} {e e' : ActiveReservation}

theorem allEntries_iff {p : String → ActiveReservation → Bool} :
    s.allEntries p ↔ ∀ key e, s.active.lookup key = some e → p key e := by
  refine ⟨fun h key e => allEntries_apply h, fun h => decide_eq_true fun key hk => ?_⟩
  obtain ⟨e, he⟩ := Option.isSome_iff_exists.mp (Finmap.lookup_isSome.mpr (Finmap.mem_keys.mp hk))
  rw [he]
  exact h key e he

/-- What `validateReservationState` checks of an entry of version 2. -/
structure EntryOk (workerSlots : Int) (key : String) (e : ActiveReservation) : Prop where
  wellFormed : e.wellFormed workerSlots key
  grant : GrantStage e
  pod : PodStage e

/-- An accepted ledger of version 2. -/
structure Accepted (s : ReservationState) : Prop where
  version : s.version = 2
  capacity : capacitySupported s.maxJobs s.maxPerRequester s.workerSlots
  jobs : (s.active.keys.card : Int) ≤ s.maxJobs
  lastGranted : s.lastGrantedRequesterHash = "" ∨
    validReservationHex s.lastGrantedRequesterHash 64
  entry : ∀ key e, s.active.lookup key = some e → EntryOk s.workerSlots key e
  slots : s.usedSlots ≤ s.workerSlots
  requester : ∀ key e, s.active.lookup key = some e →
    (s.byRequester e.requester : Int) ≤ s.maxPerRequester

theorem Valid.validate (h : s.Valid) : s.validate = .ok () := by
  have hheader : s.headerOk := by
    simp [headerOk, h.version, h.capacity, h.jobs, h.lastGranted]
  have hwell : s.allEntries (ActiveReservation.wellFormed s.workerSlots) :=
    allEntries_iff.mpr h.entry
  have hlegacy : s.version = 1 → s.allEntries (fun _ => ActiveReservation.legacy) :=
    fun hv => allEntries_iff.mpr (h.legacy hv)
  have hstage : s.version = 2 →
      s.allEntries (fun _ e => e.grantConsistent && e.podConsistent) :=
    fun hv => allEntries_iff.mpr fun key e he => by
      simp [(h.genesis hv key e he).1, (h.genesis hv key e he).2]
  have hreq : s.allEntries (fun _ e => s.byRequester e.requester ≤ s.maxPerRequester) :=
    allEntries_iff.mpr fun key e he => decide_eq_true (h.requester key e he)
  rcases h.version with hv | hv
  · simp [ReservationState.validate, hheader, hwell, hv, hlegacy hv, hreq, h.slots]
  · simp [ReservationState.validate, hheader, hwell, hv, hstage hv, hreq, h.slots]

theorem Accepted.valid (h : s.Accepted) : s.Valid where
  version := .inr h.version
  capacity := h.capacity
  lastGranted := h.lastGranted
  jobs := h.jobs
  slots := h.slots
  entry key e he := (h.entry key e he).wellFormed
  legacy hv := by
    rw [h.version] at hv
    cases hv
  genesis _ key e he :=
    ⟨grantConsistent_iff.mpr (h.entry key e he).grant, podConsistent_iff.mpr (h.entry key e he).pod⟩
  requester := h.requester

theorem Accepted.validate (h : s.Accepted) : s.validate = .ok () :=
  h.valid.validate

theorem accepted_of_validate (h : s.validate = .ok ()) (hv : s.version = 2) : s.Accepted := by
  have hvalid := validate_ok h
  refine ⟨hv, hvalid.capacity, hvalid.jobs, hvalid.lastGranted, fun key e he => ?_, hvalid.slots,
    hvalid.requester⟩
  have hstage := hvalid.genesis hv key e he
  exact ⟨hvalid.entry key e he, grantConsistent_iff.mp hstage.1, podConsistent_iff.mp hstage.2⟩

theorem mem_keys_of_lookup (he : s.active.lookup key = some e) : key ∈ s.active.keys :=
  Finmap.mem_keys.mpr (Finmap.mem_of_lookup_eq_some he)

theorem keys_set : (s.set key e).active.keys = insert key s.active.keys := by
  ext k
  simp [set, Finmap.mem_keys]

theorem slotsOf_of_lookup (he : s.active.lookup key = some e) : s.slotsOf key = e.slots := by
  simp [slotsOf, he]

theorem lookup_set_cases {k : String} {x : ActiveReservation}
    (hx : (s.set key e).active.lookup k = some x) :
    k = key ∧ x = e ∨ s.active.lookup k = some x := by
  by_cases hk : k = key
  · subst hk
    rw [lookup_set_self] at hx
    exact .inl ⟨rfl, (Option.some.inj hx).symm⟩
  · exact .inr (lookup_set_of_ne hk ▸ hx)

theorem lookup_capacity (he : s.active.lookup key = some e) (hr : e'.requester = e.requester)
    (hs : e'.slots = e.slots) (k : String) :
    (s.set key e').slotsOf k = s.slotsOf k ∧
      ∀ q, (s.set key e').heldBy q k = s.heldBy q k := by
  by_cases hk : k = key
  · subst hk
    simp [slotsOf, heldBy, he, hr, hs]
  · simp [slotsOf, heldBy, lookup_set_of_ne hk]

theorem Accepted.update (h : s.Accepted) (he : s.active.lookup key = some e)
    (hr : e'.requester = e.requester) (hs : e'.slots = e.slots)
    (hok : EntryOk s.workerSlots key e') : (s.set key e').Accepted := by
  have hkeys : (s.set key e').active.keys = s.active.keys := by
    rw [keys_set, Finset.insert_eq_of_mem (mem_keys_of_lookup he)]
  have hused : (s.set key e').usedSlots = s.usedSlots := by
    unfold usedSlots
    rw [hkeys]
    exact Finset.sum_congr rfl fun k _ => (lookup_capacity he hr hs k).1
  have hby : ∀ q, (s.set key e').byRequester q = s.byRequester q := by
    intro q
    unfold byRequester
    rw [hkeys]
    exact congrArg Finset.card (Finset.filter_congr fun k _ => by
      rw [(lookup_capacity he hr hs k).2 q])
  refine ⟨h.version, h.capacity, hkeys ▸ h.jobs, h.lastGranted, fun k x hx => ?_, hused ▸ h.slots,
    fun k x hx => ?_⟩
  · rcases lookup_set_cases hx with ⟨rfl, rfl⟩ | hx
    · exact hok
    · exact h.entry k x hx
  · rw [hby]
    rcases lookup_set_cases hx with ⟨rfl, rfl⟩ | hx
    · rw [hr]
      exact h.requester k e he
    · exact h.requester k x hx

theorem Accepted.refence (h : s.Accepted) (fence : UInt64) : Accepted { s with fence := fence } :=
  ⟨h.version, h.capacity, h.jobs, h.lastGranted, h.entry, h.slots, h.requester⟩

theorem Accepted.remove (h : s.Accepted) (key : String) : (s.remove key).Accepted := by
  have hold : ∀ k x, (s.remove key).active.lookup k = some x → s.active.lookup k = some x := by
    intro k x hx
    by_cases hk : k = key
    · subst hk
      simp at hx
    · exact lookup_remove_of_ne hk ▸ hx
  have hsub : (s.remove key).active.keys ⊆ s.active.keys := by
    intro k hk
    obtain ⟨x, hx⟩ := Option.isSome_iff_exists.mp (Finmap.lookup_isSome.mpr (Finmap.mem_keys.mp hk))
    exact mem_keys_of_lookup (hold k x hx)
  have hnonneg : ∀ k, 0 ≤ s.slotsOf k := slotsOf_nonneg (validate_ok h.validate)
  have hslots : ∀ k, (s.remove key).slotsOf k ≤ s.slotsOf k := by
    intro k
    by_cases hk : k = key
    · subst hk
      simpa [slotsOf] using hnonneg k
    · simp [slotsOf, lookup_remove_of_ne hk]
  have hused : (s.remove key).usedSlots ≤ s.usedSlots :=
    (Finset.sum_le_sum fun k _ => hslots k).trans
      (Finset.sum_le_sum_of_subset_of_nonneg hsub fun k _ _ => hnonneg k)
  have hby : ∀ q, (s.remove key).byRequester q ≤ s.byRequester q := by
    refine fun q => Finset.card_le_card fun k hk => ?_
    obtain ⟨hk, hq⟩ := Finset.mem_filter.mp hk
    refine Finset.mem_filter.mpr ⟨hsub hk, ?_⟩
    obtain ⟨x, hx, hxq⟩ := (Option.any_eq_true _ _).mp hq
    simp [heldBy, hold k x hx, hxq]
  refine ⟨h.version, h.capacity, ?_, h.lastGranted, fun k x hx => h.entry k x (hold k x hx),
    hused.trans h.slots, fun k x hx => ?_⟩
  · exact le_trans (by exact_mod_cast Finset.card_le_card hsub) h.jobs
  · exact le_trans (by exact_mod_cast hby x.requester) (h.requester k x (hold k x hx))

section New

variable (hn : s.active.lookup key = none)

include hn in
theorem notMem_keys_of_lookup : key ∉ s.active.keys := by
  intro hk
  have := Finmap.lookup_isSome.mpr (Finmap.mem_keys.mp hk)
  simp [hn] at this

include hn in
theorem card_set_new : (s.set key e).active.keys.card = s.active.keys.card + 1 := by
  rw [keys_set, Finset.card_insert_of_notMem (notMem_keys_of_lookup hn)]

include hn in
theorem usedSlots_set_new : (s.set key e).usedSlots = s.usedSlots + e.slots := by
  have hnot := notMem_keys_of_lookup hn
  have hslot : ∀ k ∈ s.active.keys, (s.set key e).slotsOf k = s.slotsOf k := by
    intro k hk
    have hne : k ≠ key := fun h => hnot (h ▸ hk)
    simp [slotsOf, lookup_set_of_ne hne]
  unfold usedSlots
  rw [keys_set, Finset.sum_insert hnot, slotsOf_of_lookup lookup_set_self,
    Finset.sum_congr rfl hslot, add_comm]

include hn in
theorem byRequester_set_new (q : String) :
    (s.set key e).byRequester q = s.byRequester q + if e.requester = q then 1 else 0 := by
  have hnot := notMem_keys_of_lookup hn
  have hold : (s.active.keys.filter fun k => (s.set key e).heldBy q k) =
      s.active.keys.filter fun k => s.heldBy q k := by
    refine Finset.filter_congr fun k hk => ?_
    have hne : k ≠ key := fun h => hnot (h ▸ hk)
    simp [heldBy, lookup_set_of_ne hne]
  have hnew : (s.set key e).heldBy q key = decide (e.requester = q) := by
    simp [heldBy, lookup_set_self]
    rfl
  unfold byRequester
  rw [keys_set, Finset.filter_insert, hold, hnew]
  by_cases hq : e.requester = q
  · have hnot' : key ∉ s.active.keys.filter fun k => s.heldBy q k :=
      fun h => hnot (Finset.mem_filter.mp h).1
    simp [hq, Finset.card_insert_of_notMem hnot']
  · simp [hq]

structure EntryValid (s : ReservationState) (key : String) (e : ActiveReservation) : Prop where
  entry : e.wellFormed s.workerSlots key
  legacy : s.version = 1 → e.legacy
  genesis : s.version = 2 → e.grantConsistent ∧ e.podConsistent

include hn in
theorem Valid.add (h : s.Valid) (hjobs : (s.active.keys.card : Int) < s.maxJobs)
    (hslots : s.usedSlots + e.slots ≤ s.workerSlots)
    (hreq : (s.byRequester e.requester : Int) < s.maxPerRequester) (hok : EntryValid s key e) :
    (s.set key e).Valid where
  version := h.version
  capacity := h.capacity
  lastGranted := h.lastGranted
  jobs := by
    rw [card_set_new hn]
    push_cast
    exact hjobs
  slots := by
    rw [usedSlots_set_new hn]
    exact hslots
  entry k x hx := by
    rcases lookup_set_cases hx with ⟨rfl, rfl⟩ | hx
    · exact hok.entry
    · exact h.entry k x hx
  legacy hv k x hx := by
    rcases lookup_set_cases hx with ⟨rfl, rfl⟩ | hx
    · exact hok.legacy hv
    · exact h.legacy hv k x hx
  genesis hv k x hx := by
    rcases lookup_set_cases hx with ⟨rfl, rfl⟩ | hx
    · exact hok.genesis hv
    · exact h.genesis hv k x hx
  requester k x hx := by
    rw [byRequester_set_new hn]
    change ((s.byRequester x.requester + _ : Nat) : Int) ≤ s.maxPerRequester
    by_cases hq : e.requester = x.requester
    · rw [hq] at hreq
      simp [hq]
      omega
    · rcases lookup_set_cases hx with ⟨rfl, rfl⟩ | hx
      · exact absurd rfl hq
      · simpa [hq] using h.requester k x hx

end New

theorem Accepted.add (h : s.Accepted) (hn : s.active.lookup key = none)
    (hjobs : (s.active.keys.card : Int) < s.maxJobs) (hslots : s.usedSlots + e.slots ≤ s.workerSlots)
    (hreq : (s.byRequester e.requester : Int) < s.maxPerRequester)
    (hok : EntryOk s.workerSlots key e) : (s.set key e).Accepted := by
  refine accepted_of_validate (h.valid.add hn hjobs hslots hreq ?_).validate h.version
  refine ⟨hok.wellFormed, fun hv => ?_, fun _ => ?_⟩
  · rw [h.version] at hv
    cases hv
  · exact ⟨grantConsistent_iff.mpr hok.grant, podConsistent_iff.mpr hok.pod⟩

theorem validReceiptUID_ne (h : validReceiptUID uid) : uid ≠ "" := by
  rintro rfl
  simp [validReceiptUID] at h

theorem digestSHA256_ne (h : digestSHA256 digest) : digest ≠ "" := by
  rintro rfl
  revert h
  decide

theorem validReservationHex_ne {value : String} (h : validReservationHex value 32) :
    value ≠ "" := by
  rintro rfl
  revert h
  decide

theorem validGrantObservedRV_ne (h : validGrantObservedRV rv) : rv ≠ "" := by
  rintro rfl
  simp [validGrantObservedRV, safeEffectID] at h

namespace EntryOk

variable {slots : Int}

theorem close (h : EntryOk slots key e) : EntryOk slots key { e with closing := true } where
  wellFormed := h.wellFormed
  grant := { h.grant with cleanup := fun hc => ⟨rfl, (h.grant.cleanup hc).2⟩ }
  pod := { h.pod with cleanup := fun hc => ⟨rfl, (h.pod.cleanup hc).2⟩ }

theorem armGrant (h : EntryOk slots key e) (hrv : validGrantObservedRV rv) :
    EntryOk slots key { e with grantObservedRV := rv } where
  wellFormed := h.wellFormed
  grant := { h.grant with
    observed := fun _ => hrv
    receipt := fun hr => ⟨validGrantObservedRV_ne hrv, (h.grant.receipt hr).2⟩ }
  pod := { h.pod with }

theorem pinGrant (h : EntryOk slots key e) (ho : e.grantObservedRV ≠ "") (hu : validReceiptUID uid)
    (hd : digestSHA256 digest) :
    EntryOk slots key { e with grantReceiptUID := uid, grantReceiptDigest := digest } where
  wellFormed := h.wellFormed
  grant := { h.grant with
    link := iff_of_false (validReceiptUID_ne hu) (digestSHA256_ne hd)
    receipt := fun _ => ⟨ho, hu, hd⟩
    cleanup := fun hc =>
      ⟨(h.grant.cleanup hc).1, (h.grant.cleanup hc).2.1, validReceiptUID_ne hu,
        (h.grant.cleanup hc).2.2.2⟩ }
  pod := { h.pod with
    template := fun ht => ⟨(h.pod.template ht).1, (h.pod.template ht).2.1, validReceiptUID_ne hu⟩ }

theorem begin {a : String} (h : EntryOk slots key e) (hn : e.podAttemptNonce = "")
    (ha : validReservationHex a 32) :
    EntryOk slots key { e with podAttemptNonce := a } where
  wellFormed := h.wellFormed
  grant := { h.grant with }
  pod := { h.pod with
    nonce := fun _ => ha
    template := fun ht => absurd hn (h.pod.template ht).1
    issued := fun x hx => absurd hn (h.pod.template (h.pod.receipt (h.pod.issued x hx).2).1).1 }

theorem armPod (h : EntryOk slots key e) (ha : e.podAttemptNonce ≠ "") (hc : e.closing = false)
    (hg : e.grantReceiptUID ≠ "") (hd : digestSHA256 digest) :
    EntryOk slots key { e with podTemplateDigest := digest } where
  wellFormed := h.wellFormed
  grant := { h.grant with
    cleanup := fun hx => absurd (h.grant.cleanup hx).1 (by simp [hc]) }
  pod := { h.pod with
    template := fun _ => ⟨ha, hd, hg⟩
    receipt := fun hr => ⟨digestSHA256_ne hd, (h.pod.receipt hr).2⟩ }

theorem pinPod (h : EntryOk slots key e) (ht : e.podTemplateDigest ≠ "") (hu : validReceiptUID uid)
    (hd : digestSHA256 digest) :
    EntryOk slots key { e with podReceiptUID := uid, podReceiptDigest := digest } where
  wellFormed := h.wellFormed
  grant := { h.grant with }
  pod := { h.pod with
    link := iff_of_false (validReceiptUID_ne hu) (digestSHA256_ne hd)
    receipt := fun _ => ⟨ht, hu, hd⟩
    issued := fun x hx => ⟨(h.pod.issued x hx).1, validReceiptUID_ne hu⟩
    cleanup := fun hx => ⟨(h.pod.cleanup hx).1, (h.pod.cleanup hx).2.1, validReceiptUID_ne hu⟩ }

theorem wellFormed_inFlight {nonces : List String} (h : e.wellFormed slots key)
    (hl : nonces.length ≤ 1) (hn : ∀ a ∈ nonces, validReservationHex a 32) :
    ActiveReservation.wellFormed slots key { e with inFlight := nonces } := by
  simp only [ActiveReservation.wellFormed, Bool.and_eq_true, decide_eq_true_eq,
    List.all_eq_true] at h ⊢
  exact ⟨⟨h.1.1, hl⟩, hn⟩

theorem issue (h : EntryOk slots key e) (hr : e.podReceiptUID ≠ "") (hc : e.closing = false) :
    EntryOk slots key { e with inFlight := [e.podAttemptNonce] } where
  wellFormed := by
    have ha := h.pod.nonce (h.pod.template (h.pod.receipt hr).1).1
    exact wellFormed_inFlight h.wellFormed le_rfl (by simpa using ha)
  grant := { h.grant with
    cleanup := fun hx => absurd (h.grant.cleanup hx).1 (by simp [hc]) }
  pod := { h.pod with
    issued := fun x hx => ⟨List.mem_singleton.mp hx, hr⟩
    cleanup := fun hx => absurd (h.pod.cleanup hx).1 (by simp [hc]) }

theorem complete (h : EntryOk slots key e) : EntryOk slots key { e with inFlight := [] } where
  wellFormed := wellFormed_inFlight h.wellFormed (Nat.zero_le _) (by simp)
  grant := { h.grant with
    cleanup := fun hx => ⟨(h.grant.cleanup hx).1, rfl, (h.grant.cleanup hx).2.2⟩ }
  pod := { h.pod with
    issued := by simp
    cleanup := fun hx => ⟨(h.pod.cleanup hx).1, rfl, (h.pod.cleanup hx).2.2⟩ }

theorem markPod (h : EntryOk slots key e) (hc : e.closing) (hi : e.inFlight = [])
    (hr : e.podReceiptUID ≠ "") : EntryOk slots key { e with podCleanupReady := true } where
  wellFormed := h.wellFormed
  grant := { h.grant with
    cleanup := fun hx =>
      ⟨hc, hi, (h.grant.cleanup hx).2.2.1, fun _ => rfl⟩ }
  pod := { h.pod with cleanup := fun _ => ⟨hc, hi, hr⟩ }

theorem markGrant (h : EntryOk slots key e) (hc : e.closing) (hi : e.inFlight = [])
    (hr : e.grantReceiptUID ≠ "") (hp : e.podTemplateDigest ≠ "" → e.podCleanupReady) :
    EntryOk slots key { e with grantCleanupReady := true } where
  wellFormed := h.wellFormed
  grant := { h.grant with cleanup := fun _ => ⟨hc, hi, hr, hp⟩ }
  pod := { h.pod with }

end EntryOk

end ReservationState

end KovaService.Ledger
