import KovaService.Safety.Intents

/-!
The queue quota is real: a build that is arriving or waiting is counted by an intent of its own.
And the order in which a Genesis intent is released.
-/

namespace KovaService.Safety

open Lib Api Ledger Protocol Proof KovaService.System

variable {w : World} {ρ : w.Execution} {n m k t : Nat} {uid : UID} {b c : KovaBuild}

/-- A build is marked as settled only when its entry has gone for good. -/
theorem settled_absent (hb : b ∈ (ρ.store n).versions)
    (hs : b.annotations.queueReceiptSettledUID ≠ "") :
    ∃ k, k ≤ n ∧ Fenced ρ k b.uid ∧ entryAt ρ k b.uid = none := by
  refine version_induction (P := fun n b => b.annotations.queueReceiptSettledUID ≠ "" →
    ∃ k, k ≤ n ∧ Fenced ρ k b.uid ∧ entryAt ρ k b.uid = none) (fun n b h hs => ?_)
    (fun n b hc _ hs => ?_) (fun n current b hrev _ _ h hs => ?_) n b hb hs
  · obtain ⟨k, hk, hrest⟩ := h hs
    exact ⟨k, Nat.le_succ_of_le hk, hrest⟩
  · rcases hc.cause with hun | ⟨b₀, ha, -, han, -⟩
    · simp [unlinked, hs] at hun
    · obtain ⟨_, _, -, -, _, _, -, -, -, -, -, hset⟩ := acts_demanded ha rfl
      exact absurd (han ▸ hset) hs
  · have old : current.annotations.queueReceiptSettledUID ≠ "" →
        ∃ k, k ≤ n + 1 ∧ Fenced ρ k current.uid ∧ entryAt ρ k current.uid = none := by
      intro hne
      obtain ⟨k, hk, hrest⟩ := h hne
      exact ⟨k, Nat.le_succ_of_le hk, hrest⟩
    cases hrev with
    | metadata hm hw =>
      rcases hw.settle with he | ⟨-, k, k', hkk, hk', hnone, hf, -⟩
      · exact old (he ▸ hs)
      · exact ⟨k, by omega, hf, hnone⟩
    | status | cancel | delete => exact old hs

theorem settled_ended (hb : b ∈ (ρ.store n).versions)
    (hs : b.annotations.queueReceiptSettledUID ≠ "") : b.terminalOrDeleting := by
  refine version_induction (P := fun _ b => b.annotations.queueReceiptSettledUID ≠ "" →
    b.terminalOrDeleting) (fun _ _ h => h) (fun n b hc _ hs => ?_)
    (fun n current b hrev _ _ h hs => ?_) n b hb hs
  · rcases hc.cause with hun | ⟨b₀, ha, -, han, -⟩
    · simp [unlinked, hs] at hun
    · obtain ⟨_, _, -, -, _, _, -, -, -, -, -, hset⟩ := acts_demanded ha rfl
      exact absurd (han ▸ hset) hs
  · cases hrev with
    | metadata hm hw =>
      rcases hw.settle with he | ⟨-, _, _, -, -, -, -, -, hend⟩
      · exact h (he ▸ hs)
      · exact hend
    | @status m t b' rv hm _ hw =>
      have hend := h hs
      simp only [KovaBuild.terminalOrDeleting, Bool.or_eq_true] at hend ⊢
      refine hend.imp_right fun hterm => ?_
      rcases hw.terminal hterm with hkept | ⟨-, hdirect⟩
      · rw [hkept.phase]
        exact hterm
      · -- the writer saw the Pod of a build whose entry had gone
        obtain ⟨k₀, k₁, k₂, b₁, c, p, -, h12, -, -, -, hget, hcu, hca, -, hp, hown⟩ := hdirect
        have hcv := ((versions_ok ρ k₁).current _ _ (getBuild_answer hget)).1
        obtain ⟨k, hk, hf, hnone⟩ := settled_absent hcv (hca ▸ hs)
        rw [hcu] at hf hnone
        obtain ⟨e, he⟩ := pod_entry hp hown
        rw [absent_forever hf hnone (by omega)] at he
        cases he
    | cancel => exact h hs
    | delete => rfl

theorem ended_later (hg : w.genesis = none) {name : String} (hb : b ∈ (ρ.store m).versions)
    (hend : b.terminalOrDeleting) (hmn : m ≤ n)
    (hc : (ρ.store n).builds.lookup name = some c) (hu : c.uid = b.uid) :
    c.terminalOrDeleting := by
  refine stored_later (P := fun b => b.terminalOrDeleting = true) (fun n current b hrev h => ?_) hb
    hend hmn hc hu
  cases hrev with
  | metadata | cancel => exact h
  | delete => rfl
  | status _ _ hw =>
    simp only [KovaBuild.terminalOrDeleting, Bool.or_eq_true] at h ⊢
    refine h.imp_right fun hterm => ?_
    rcases hw.terminal hterm with hkept | ⟨hsome, -⟩
    · rw [hkept.phase]
      exact hterm
    · simp [hg] at hsome

theorem settled_later {name : String} (hb : b ∈ (ρ.store m).versions)
    (hs : b.annotations.queueReceiptSettledUID ≠ "") (hmn : m ≤ n)
    (hc : (ρ.store n).builds.lookup name = some c) (hu : c.uid = b.uid) :
    c.annotations.queueReceiptSettledUID ≠ "" :=
  stored_later (P := fun b => b.annotations.queueReceiptSettledUID ≠ "")
    (fun _ _ _ hrev h he => h ((hrev.advance.linked.settled h).symm.trans he)) hb hs hmn hc hu

def HasIntent (ρ : w.Execution) (n : Nat) (b : KovaBuild) : Prop :=
  ∃ e, intentAt ρ n b.name = some e ∧ e.nonce = b.annotations.queueIntent ∧
    e.requesterHash = w.ext.hashRequester b.spec.requester.username

def Arriving (ρ : w.Execution) (n : Nat) (b : KovaBuild) : Prop :=
  ∃ i, (i, Request.createBuild b) ∈ (ρ.state n).wire

theorem arriving_intent (h : Arriving ρ n b) : HasIntent ρ n b := by
  obtain ⟨i, hw⟩ := h
  obtain ⟨-, j, t, hj, hs, -⟩ := ρ.wire_sent n i _ hw
  obtain ⟨m, e, hm, hmark, -, hq, hr, -⟩ := sends_demanded ρ j t _ hs
  obtain ⟨-, k, hk, he⟩ := fresh_mark hmark
  obtain ⟨e', he', hn', hr'⟩ := intent_stays he (by omega) (hq ▸ not_submitted_of_wire hw)
  exact ⟨e', he', hn'.trans hq.symm, hr'.trans hr⟩

/-- The build was created through the HTTP API and has not ended. -/
structure Open (ρ : w.Execution) (n : Nat) (b : KovaBuild) : Prop where
  stored : (ρ.store n).builds.lookup b.name = some b
  http : b.annotations.queueIntent ≠ ""
  running : b.terminalOrDeleting = false

theorem not_refused (hb : b ∈ (ρ.store n).versions) (hne : b.annotations.queueIntent ≠ "") :
    ¬ Refused ρ m b.annotations.queueIntent := by
  rintro ⟨j, b', -, ha, hq, hsame⟩
  obtain ⟨i, b₀, c, h⟩ := version_submitted hb hne
  obtain rfl := submitted_once h.acts ha (hq.trans h.intent.symm)
  rw [h.added] at hsame
  simpa using congrArg List.length hsame

theorem entry_of_open (hg : w.genesis = none) (ho : Open ρ n b) {e : ActiveReservation}
    (hmn : m ≤ n) (he : entryAt ρ m b.uid = some e) : ∃ e', entryAt ρ n b.uid = some e' := by
  by_contra hne
  have hnone : entryAt ρ n b.uid = none := by
    simpa [Option.eq_none_iff_forall_ne_some] using hne
  obtain ⟨i, -, hin, hi, hi'⟩ := exists_last_instant (P := fun i => entryAt ρ i b.uid ≠ none) hmn
    (by simp [he]) (by simp [hnone])
  obtain ⟨e₁, he₁⟩ := Option.ne_none_iff_exists'.mp hi
  obtain ⟨m', k, t, hr⟩ := entry_removed he₁ (not_not.mp hi')
  obtain ⟨c, hc, hu, hend⟩ := hr.ended
  have hb := hr.commit.before
  have := ended_later hg hc hend (by omega) ho.stored hu.symm
  rw [ho.running] at this
  cases this

theorem open_intent (ho : Open ρ n b) :
    HasIntent ρ n b ∨ w.genesis = none ∧ ∃ e, entryAt ρ n b.uid = some e := by
  have hver := ((versions_ok ρ n).current _ _ ho.stored).1
  obtain ⟨m, b₀, c, h⟩ := version_submitted hver ho.http
  obtain ⟨i, x, r, heff⟩ := effect_of_acts ρ h.acts rfl
  have h₀ : HasIntent ρ m b := by
    obtain ⟨e, he, hn, hr⟩ := arriving_intent ⟨i, heff.1⟩
    exact ⟨e, h.name ▸ he, hn.trans h.intent, by rw [hr, h.spec]⟩
  by_cases hkept : HasIntent ρ n b
  · exact .inl hkept
  -- otherwise the intent was released at some instant before, which only a legacy grant allows
  obtain ⟨j, hmj, hjn, ⟨e, he, hn, hr⟩, hlost⟩ := exists_last_instant
    (P := fun j => HasIntent ρ j b) h.before.le h₀ hkept
  have hnone : intentAt ρ (j + 1) b.name = none := by
    by_contra hsome
    obtain ⟨e', he'⟩ := Option.ne_none_iff_exists'.mp hsome
    have hk := intent_keeps_succ he he'
    exact hlost ⟨e', he', hk.nonce.trans hn, hk.requesterHash.trans hr⟩
  obtain ⟨m', k, t, writer, hc, hmove⟩ := intent_removed he hnone
  have hb := hc.before
  have hrefused : ∀ i, i ≤ n → ¬ Refused ρ i e.nonce := fun i _ => hn ▸ not_refused hver ho.http
  right
  cases hmove with
  | @releaseLegacy _ b' hg hb' _ hq hd =>
    have hu : b.uid = b'.uid :=
      intent_build_unique hb' hver (by rw [hq, hn]; exact ho.http) (by rw [hq, hn])
    refine ⟨hg, ?_⟩
    rcases hd with hend | ⟨i', hi', r', hr'⟩
    · have := ended_later hg hb' hend (by omega) ho.stored hu
      rw [ho.running] at this
      cases this
    · exact entry_of_open hg ho (by omega) (hu ▸ hr')
  | releaseTerminal _ _ hset =>
    obtain ⟨k₁, k₂, b', c', hk, hk₂, hl', hlc, hcu, -, hq, -, hs, hne⟩ := hset
    have hv' := ((versions_ok ρ k₁).current _ _ hl').1
    have hvc := ((versions_ok ρ k₂).current _ _ hlc).1
    have hu : b.uid = b'.uid :=
      intent_build_unique hv' hver (by rw [hq, hn]; exact ho.http) (by rw [hq, hn])
    have hsn := settled_later hvc (hs ▸ hne) (by omega) ho.stored (hu.trans hcu.symm)
    have := settled_ended hver hsn
    rw [ho.running] at this
    cases this
  | releaseRefused _ _ _ href => exact absurd href (hrefused k (by omega))
  | releaseRejected hk _ =>
    obtain ⟨j', _, k', _, _, hj', hc', -, -, -, -, -, -, hmay⟩ := kind_committed he (by simp [hk])
    rw [hk] at hmay
    have := hc'.before
    exact absurd hmay.2 (hrefused k' (by omega))

theorem queue_validate (ρ : w.Execution) (n : Nat) : (ρ.store n).queue.data.validate = .ok () := by
  induction n with
  | zero =>
    have hlim := queueLimits_bounds w.queueLimits
    rw [show ρ.store 0 = w.initial from congrArg Machine.store ρ.zero]
    simp only [World.initial]
    split <;>
      simp [QueueState.validate, QueueState.allIntents, QueueState.genesisEmpty,
        QueueState.freshState, w.queueLimits] <;>
      omega
  | succ n ih =>
    rcases queue_step ρ n with h | ⟨m, k, t, writer, id, hc⟩
    · rwa [h]
    · exact hc.valid

theorem queue_valid (ρ : w.Execution) (n : Nat) : (ρ.store n).queue.data.Valid :=
  QueueState.validate_ok (queue_validate ρ n)

/-- A build that takes a place in the queue: it is arriving, or it has not ended and, in legacy mode,
has no entry yet. -/
def Queued (ρ : w.Execution) (n : Nat) (b : KovaBuild) : Prop :=
  Arriving ρ n b ∨ Open ρ n b ∧
    (w.genesis = none → (ρ.store n).ledger.data.active.lookup b.uid = none)

theorem queued_intent (h : Queued ρ n b) : HasIntent ρ n b := by
  rcases h with h | ⟨ho, hnone⟩
  · exact arriving_intent h
  · refine (open_intent ho).resolve_right ?_
    rintro ⟨hg, e, he⟩
    rw [entryAt, hnone hg] at he
    cases he

theorem arriving_unique (h : Arriving ρ n b) (h' : Arriving ρ n c)
    (hq : c.annotations.queueIntent = b.annotations.queueIntent) : b = c := by
  obtain ⟨i, hw⟩ := h
  obtain ⟨i', hw'⟩ := h'
  obtain ⟨-, j, t, -, hs, hi⟩ := ρ.wire_sent n i _ hw
  obtain ⟨-, j', t', -, hs', hi'⟩ := ρ.wire_sent n i' _ hw'
  obtain rfl := submits_once b.annotations.queueIntent j t _ j' t' _ hs rfl hs' hq
  cases (hs.unique hs').2
  rfl

theorem not_arriving_of_stored (h : Arriving ρ n b) (hc : c ∈ (ρ.store n).versions)
    (hne : c.annotations.queueIntent ≠ "") :
    b.annotations.queueIntent ≠ c.annotations.queueIntent := by
  intro hq
  obtain ⟨i, hw⟩ := h
  obtain ⟨m, b₀, c', hcr⟩ := version_submitted hc hne
  exact not_submitted_of_wire hw ⟨m, b₀, hcr.before, hcr.acts, hcr.intent.trans hq.symm⟩

theorem queued_name_inj (h : Queued ρ n b) (h' : Queued ρ n c) (hname : b.name = c.name) :
    b = c := by
  obtain ⟨e, he, hn, -⟩ := queued_intent h
  obtain ⟨e', he', hn', -⟩ := queued_intent h'
  rw [hname, he'] at he
  cases he
  have hq : c.annotations.queueIntent = b.annotations.queueIntent := hn'.symm.trans hn
  have stored : ∀ {b}, Open ρ n b → b ∈ (ρ.store n).versions :=
    fun ho => ((versions_ok ρ n).current _ _ ho.stored).1
  rcases h with h | ⟨ho, -⟩ <;> rcases h' with h' | ⟨ho', -⟩
  · exact arriving_unique h h' hq
  · exact absurd hq.symm (not_arriving_of_stored h (stored ho') ho'.http)
  · exact absurd hq (not_arriving_of_stored h' (stored ho) ho.http)
  · exact Option.some.inj (ho.stored.symm.trans (hname ▸ ho'.stored))

theorem queued_card {B : Finset KovaBuild} (hB : ∀ b ∈ B, Queued ρ n b) {K : Finset String}
    (hK : ∀ b ∈ B, b.name ∈ K) : B.card ≤ K.card :=
  Finset.card_le_card_of_injOn KovaBuild.name (fun b hb => hK b hb)
    fun b hb c hc hname => queued_name_inj (hB b hb) (hB c hc) hname

/-- In every run and at every instant: a KovaBuild Create of the HTTP API that can still take effect
has its intent, under its name and nonce; a build created through the HTTP API that has not ended has
its intent or, in legacy mode, an entry; so at most `GlobalLimit` builds, and at most
`RequesterLimit` of one requester, are arriving or waiting. -/
theorem queue_quota (ρ : w.Execution) (n : Nat) :
    (∀ b i, (i, Request.createBuild b) ∈ (ρ.state n).wire →
      ∃ e, (ρ.store n).queue.data.intents.lookup b.name = some e ∧
        e.nonce = b.annotations.queueIntent) ∧
    (∀ b, (ρ.store n).builds.lookup b.name = some b → b.annotations.queueIntent ≠ "" →
      b.terminalOrDeleting = false →
      (∃ e, (ρ.store n).queue.data.intents.lookup b.name = some e ∧
        e.nonce = b.annotations.queueIntent) ∨
      w.genesis = none ∧ ∃ r, (ρ.store n).ledger.data.active.lookup b.uid = some r) ∧
    ∀ B : Finset KovaBuild, (∀ b ∈ B, Queued ρ n b) →
      (B.card : Int) ≤ w.cfg.maxQueuedJobs ∧
      ∀ username, (∀ b ∈ B, b.spec.requester.username = username) →
        (B.card : Int) ≤ w.cfg.maxQueuedJobsPerRequester := by
  refine ⟨fun b i hw => ?_, fun b hl hne hrun => ?_, fun B hB => ⟨?_, fun username huser => ?_⟩⟩
  · obtain ⟨e, he, hn, -⟩ := arriving_intent ⟨i, hw⟩
    exact ⟨e, he, hn⟩
  · refine (open_intent ⟨hl, hne, hrun⟩).imp_left ?_
    rintro ⟨e, he, hn, -⟩
    exact ⟨e, he, hn⟩
  · have hcard := queued_card hB (K := (ρ.store n).queue.data.intents.keys) fun b hb => by
      obtain ⟨e, he, -⟩ := queued_intent (hB b hb)
      exact Finmap.mem_keys.mpr (Finmap.mem_of_lookup_eq_some he)
    calc (B.card : Int) ≤ (ρ.store n).queue.data.intents.keys.card := by exact_mod_cast hcard
      _ ≤ (ρ.store n).queue.data.globalLimit := (queue_valid ρ n).global
      _ = w.cfg.maxQueuedJobs := (queue_header ρ n).2.1
  · rcases B.eq_empty_or_nonempty with rfl | ⟨b₀, hb₀⟩
    · have hlim := w.queueLimits
      simp only [queueLimitsSupported, Bool.not_eq_true', Bool.or_eq_false_iff,
        decide_eq_false_iff_not] at hlim
      simp only [Finset.card_empty, Nat.cast_zero]
      omega
    obtain ⟨e₀, he₀, -, hr₀⟩ := queued_intent (hB b₀ hb₀)
    have hcard := queued_card hB (K := (ρ.store n).queue.data.intents.keys.filter fun id =>
        (ρ.store n).queue.data.heldBy e₀.requesterHash id) fun b hb => by
      obtain ⟨e, he, -, hr⟩ := queued_intent (hB b hb)
      refine Finset.mem_filter.mpr ⟨Finmap.mem_keys.mpr (Finmap.mem_of_lookup_eq_some he), ?_⟩
      rw [intentAt] at he
      simp [QueueState.heldBy, he, hr, hr₀, huser b hb, huser b₀ hb₀]
    calc (B.card : Int) ≤ (ρ.store n).queue.data.requesterCount e₀.requesterHash := by
          exact_mod_cast hcard
      _ ≤ (ρ.store n).queue.data.requesterLimit := (queue_valid ρ n).requester _ _ he₀
      _ = w.cfg.maxQueuedJobsPerRequester := (queue_header ρ n).2.2

end KovaService.Safety
