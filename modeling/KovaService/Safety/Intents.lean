import KovaService.Safety.Capacity

/-!
The life of an intent of the queue ledger.

A nonce is handed to one submission, which sends one KovaBuild Create with it.  Until that Create has
arrived the intent with this nonce stays in the ledger.
-/

namespace KovaService.Safety

open Lib Api Ledger Protocol Proof KovaService.System

variable {w : World} {ρ : w.Execution} {n m k t : Nat} {id a : String} {e e' : Intent}

def intentAt (ρ : w.Execution) (n : Nat) (id : String) : Option Intent :=
  (ρ.store n).queue.data.intents.lookup id

variable {writer : QueueWriter}

theorem queueChange_intent {s next : QueueState} (h : QueueChange ρ t m k id s writer next) :
    IntentMove ρ t m k id writer (s.intents.lookup id) (next.intents.lookup id) := by
  cases h with
  | set he hm => rwa [he, QueueState.lookup_set_self]
  | remove he hm => rwa [he, QueueState.lookup_remove_self]

theorem intent_step (ρ : w.Execution) (n : Nat) (id : String) :
    intentAt ρ (n + 1) id = intentAt ρ n id ∨
      ∃ m k t writer, QueueCommit ρ n m k t writer id ∧
        IntentMove ρ t m k id writer (intentAt ρ n id) (intentAt ρ (n + 1) id) := by
  rcases queue_step ρ n with h | ⟨m, k, t, writer, id', hc⟩
  · exact .inl (by rw [intentAt, h]; rfl)
  · by_cases hid : id = id'
    · subst hid
      exact .inr ⟨m, k, t, writer, hc, queueChange_intent hc.change⟩
    · exact .inl ((queueChange_local hc.change).others id hid)

/-- What a move keeps of an intent that stays. -/
structure Keeps (e e' : Intent) : Prop where
  nonce : e'.nonce = e.nonce
  requesterHash : e'.requesterHash = e.requesterHash
  receipt : e.receiptUID ≠ "" → e'.receiptUID = e.receiptUID ∧ e'.receiptDigest = e.receiptDigest
  cleanupKind : e.cleanupKind ≠ .unset → e'.cleanupKind = e.cleanupKind

theorem Keeps.refl (e : Intent) : Keeps e e := ⟨rfl, rfl, fun _ => ⟨rfl, rfl⟩, fun _ => rfl⟩

theorem intentMove_keeps (h : IntentMove ρ t m k id writer (some e) (some e')) : Keeps e e' := by
  cases h <;> constructor <;> simp_all

theorem intent_keeps_succ (he : intentAt ρ n id = some e) (he' : intentAt ρ (n + 1) id = some e') :
    Keeps e e' := by
  rcases intent_step ρ n id with h | ⟨m, k, t, writer, -, hmove⟩
  · rw [he', he] at h
    cases h
    exact .refl e
  · rw [he, he'] at hmove
    exact intentMove_keeps hmove

theorem intent_removed (he : intentAt ρ n id = some e) (hn : intentAt ρ (n + 1) id = none) :
    ∃ m k t writer, QueueCommit ρ n m k t writer id ∧
      IntentMove ρ t m k id writer (some e) none := by
  rcases intent_step ρ n id with h | ⟨m, k, t, writer, hc, hmove⟩
  · rw [hn, he] at h
    cases h
  · rw [he, hn] at hmove
    exact ⟨m, k, t, writer, hc, hmove⟩

theorem intent_initial (ρ : w.Execution) (id : String) : intentAt ρ 0 id = none := by
  rw [intentAt, show ρ.store 0 = w.initial from congrArg Machine.store ρ.zero]
  simp only [World.initial]
  split <;> simp [QueueState.genesisEmpty, QueueState.freshState]

/-- The kind of cleanup an intent carries was committed by a move that had seen its receipt and had a
reason for the kind. -/
theorem kind_committed (he : intentAt ρ n id = some e) (hk : e.cleanupKind ≠ .unset) :
    ∃ j m k t e₀, j < n ∧ QueueCommit ρ j m k t .markReceiptCleanupReady id ∧
      intentAt ρ j id = some e₀ ∧ e₀.nonce = e.nonce ∧ e₀.receiptUID = e.receiptUID ∧
      e₀.receiptDigest = e.receiptDigest ∧ e.receiptUID ≠ "" ∧ ObservedReceipt ρ t k id e₀ ∧
      MayClean ρ t k id e.nonce e.cleanupKind := by
  induction n generalizing e with
  | zero =>
    rw [intent_initial] at he
    cases he
  | succ n ih =>
    rcases intent_step ρ n id with h | ⟨m, k, t, writer, hc, hmove⟩
    · obtain ⟨j, m, k, t, e₀, hj, hrest⟩ := ih (h.symm.trans he) hk
      exact ⟨j, m, k, t, e₀, Nat.lt_succ_of_lt hj, hrest⟩
    · rw [he] at hmove
      generalize hprev : intentAt ρ n id = before at hmove
      cases hmove with
      | reserve _ _ hk' | pin _ hk' => exact absurd hk' hk
      | mark hu _ ho hm =>
        exact ⟨n, m, k, t, _, Nat.lt_succ_self n, hc, hprev, rfl, rfl, rfl, hu, ho, hm⟩

theorem nonce_ne_empty (h : Minted ρ t n a) : a ≠ "" := by
  obtain ⟨m, -, hg⟩ := h
  rintro rfl
  exact absurd (nonce_fresh ρ hg).1 (by decide)

theorem intent_minted (he : intentAt ρ n id = some e) : ∃ t k, k < n ∧ Minted ρ t k e.nonce := by
  induction n generalizing e with
  | zero =>
    rw [intent_initial] at he
    cases he
  | succ n ih =>
    have hprev : ∀ e₀, intentAt ρ n id = some e₀ → e₀.nonce = e.nonce →
        ∃ t k, k < n + 1 ∧ Minted ρ t k e.nonce := by
      intro e₀ he₀ hn
      obtain ⟨t, k, hk, hm⟩ := ih he₀
      exact ⟨t, k, Nat.lt_succ_of_lt hk, hn ▸ hm⟩
    rcases intent_step ρ n id with h | ⟨m, k, t, writer, hc, hmove⟩
    · exact hprev e (h.symm.trans he) rfl
    · rw [he] at hmove
      generalize hbefore : intentAt ρ n id = before at hmove
      cases hmove with
      | reserve ha =>
        obtain ⟨j, -, hjk, hun⟩ := ha
        exact ⟨t, j, by have := hc.before; omega, hun.minted⟩
      | pin | mark => exact hprev _ hbefore rfl

def submits (a : String) : Request → Prop
  | .createBuild b => b.annotations.queueIntent = a
  | _ => False

theorem fresh_mark {e : Intent} (h : ρ.sends n t (.mark (.reserved id e true))) :
    Unspent ρ t n e.nonce isFreshMark ∧ ∃ k, k ≤ n ∧ intentAt ρ k id = some e :=
  sends_demanded ρ n t _ h

theorem submits_once (a : String) : ∀ n t q n' t' q', ρ.sends n t q → submits a q →
    ρ.sends n' t' q' → submits a q' → n = n' := by
  intro n t q n' t' q' hs hq hs' hq'
  cases q with
  | createBuild b =>
    cases q' with
    | createBuild b' =>
      obtain ⟨m, e, hm, hmark, hsil, hn, -⟩ := sends_demanded ρ n t _ hs
      obtain ⟨m', e', hm', hmark', hsil', hn', -⟩ := sends_demanded ρ n' t' _ hs'
      have hu := (fresh_mark hmark).1
      have hu' := (fresh_mark hmark').1
      rw [← hn, show b.annotations.queueIntent = a from hq] at hu
      rw [← hn', show b'.annotations.queueIntent = a from hq'] at hu'
      obtain rfl := unspent_once hu hmark rfl hu' hmark' rfl
      obtain ⟨rfl, -⟩ := hmark.unique hmark'
      rcases Nat.lt_trichotomy n n' with hlt | heq | hlt
      · exact absurd trivial ((hsil' n hm.le hlt).1 _ hs)
      · exact heq
      · exact absurd trivial ((hsil n' hm'.le hlt).1 _ hs')
    | _ => exact hq'.elim
  | _ => exact hq.elim

/-- The Create for the intent with nonce `a` has arrived before `n`. -/
def Submitted (ρ : w.Execution) (n : Nat) (a : String) : Prop :=
  ∃ m b, m < n ∧ ρ.acts m (.createBuild b) ∧ b.annotations.queueIntent = a

theorem Submitted.mono {j : Nat} (h : Submitted ρ n a) (hnj : n ≤ j) : Submitted ρ j a := by
  obtain ⟨m, b, hm, hb⟩ := h
  exact ⟨m, b, hm.trans_le hnj, hb⟩

theorem Refused.submitted (h : Refused ρ n a) : Submitted ρ n a := by
  obtain ⟨m, b, hm, ha, hn, -⟩ := h
  exact ⟨m, b, hm, ha, hn⟩

variable {b : KovaBuild}

theorem submitted_once {b' : KovaBuild} (ha : ρ.acts m (.createBuild b))
    (ha' : ρ.acts n (.createBuild b'))
    (hn : b'.annotations.queueIntent = b.annotations.queueIntent) : m = n := by
  obtain ⟨i, c, r, he⟩ := effect_of_acts ρ ha rfl
  obtain ⟨i', c', r', he'⟩ := effect_of_acts ρ ha' rfl
  rcases Nat.lt_trichotomy m n with hlt | heq | hlt
  · exact absurd hn (he.last (submits_once b.annotations.queueIntent) rfl rfl hlt he'.1)
  · exact heq
  · exact absurd rfl (he'.last (submits_once b.annotations.queueIntent) hn rfl hlt he.1)

theorem not_submitted_of_wire {i : Nat} (h : (i, Request.createBuild b) ∈ (ρ.state n).wire) :
    ¬ Submitted ρ n b.annotations.queueIntent := by
  rintro ⟨m, b', hm, ha, hn⟩
  obtain ⟨i', c, r, he⟩ := effect_of_acts ρ ha rfl
  exact he.last (submits_once b.annotations.queueIntent) hn rfl hm h rfl

/-- The Create of a build: it arrived before `n`, at an instant that added a version. -/
structure CreatedBy (ρ : w.Execution) (n : Nat) (b : KovaBuild) (m : Nat) (b₀ c : KovaBuild) :
    Prop where
  before : m < n
  acts : ρ.acts m (.createBuild b₀)
  name : b₀.name = b.name
  intent : b₀.annotations.queueIntent = b.annotations.queueIntent
  spec : b₀.spec = b.spec
  uid : c.uid = b.uid
  added : (ρ.store (m + 1)).versions = c :: (ρ.store m).versions

theorem version_submitted (hb : b ∈ (ρ.store n).versions) (hne : b.annotations.queueIntent ≠ "") :
    ∃ m b₀ c, CreatedBy ρ n b m b₀ c := by
  refine version_induction (P := fun n b => b.annotations.queueIntent ≠ "" →
    ∃ m b₀ c, CreatedBy ρ n b m b₀ c) (fun n b h hne => ?_) (fun n b hc hv hne => ?_)
    (fun n current b hrev hsame _ h hne => ?_) n b hb hne
  · obtain ⟨m, b₀, c, h⟩ := h hne
    exact ⟨m, b₀, c, { h with before := Nat.lt_succ_of_lt h.before }⟩
  · rcases hc.cause with hun | ⟨b₀, ha, hn, han, hsp⟩
    · simp [unlinked, hne] at hun
    · exact ⟨n, b₀, b, Nat.lt_succ_self n, ha, hn, by rw [han], hsp, rfl, hv⟩
  · have hi := hrev.advance.linked.intent
    obtain ⟨m, b₀, c, h⟩ := h (hi ▸ hne)
    exact ⟨m, b₀, c, Nat.lt_succ_of_lt h.before, h.acts, h.name.trans hsame.name.symm,
      h.intent.trans hi.symm, h.spec.trans hsame.spec.symm, h.uid.trans hsame.uid.symm, h.added⟩

theorem intent_build_unique {c : KovaBuild} (hb : b ∈ (ρ.store m).versions)
    (hc : c ∈ (ρ.store n).versions) (hne : b.annotations.queueIntent ≠ "")
    (hq : c.annotations.queueIntent = b.annotations.queueIntent) : c.uid = b.uid := by
  obtain ⟨i, b₀, b', h⟩ := version_submitted hb hne
  obtain ⟨j, c₀, c', h'⟩ := version_submitted hc (hq ▸ hne)
  obtain rfl := submitted_once h.acts h'.acts (h'.intent.trans (hq.trans h.intent.symm))
  have hv := h.added.symm.trans h'.added
  rw [← h.uid, ← h'.uid, (List.cons.inj hv).1]

theorem removal_submitted (he : intentAt ρ n id = some e) (hc : QueueCommit ρ n m k t writer id)
    (h : IntentMove ρ t m k id writer (some e) none) :
    Submitted ρ n e.nonce := by
  obtain ⟨t', k', -, hmint⟩ := intent_minted he
  have hne := nonce_ne_empty hmint
  have ofVersion : ∀ j b, j ≤ n → b ∈ (ρ.store j).versions →
      b.annotations.queueIntent = e.nonce → Submitted ρ n e.nonce := by
    intro j b hj hb hq
    obtain ⟨i, b₀, c, h⟩ := version_submitted hb (hq ▸ hne)
    exact ⟨i, b₀, h.before.trans_le hj, h.acts, h.intent.trans hq⟩
  have hkn := hc.before.2
  cases h with
  | releaseLegacy _ hb _ ha _ => exact ofVersion k _ hkn.le hb ha
  | releaseTerminal _ _ hb =>
    obtain ⟨i, i', b, c, hii, hik, hl, -, -, -, hq, -⟩ := hb
    exact ofVersion i b (by omega) ((versions_ok ρ i).current _ _ hl).1 hq
  | releaseRefused _ _ _ hs => exact (Refused.submitted hs).mono hkn.le
  | releaseRejected hk _ =>
    obtain ⟨j, m', k', t', e₀, hj, hc', -, -, -, -, -, -, hmay⟩ := kind_committed he (by simp [hk])
    rw [hk] at hmay
    exact (Refused.submitted hmay.2).mono (hc'.before.2.le.trans hj.le)

theorem intent_stays (he : intentAt ρ m id = some e) (hmn : m ≤ n) (hs : ¬ Submitted ρ n e.nonce) :
    ∃ e', intentAt ρ n id = some e' ∧ e'.nonce = e.nonce ∧ e'.requesterHash = e.requesterHash := by
  induction hmn with
  | refl => exact ⟨e, he, rfl, rfl⟩
  | @step n hmn ih =>
    have hs' : ¬ Submitted ρ n e.nonce := fun h => hs (h.mono (Nat.le_succ n))
    obtain ⟨e₁, he₁, hn₁, hr₁⟩ := ih hs'
    cases he' : intentAt ρ (n + 1) id with
    | none =>
      obtain ⟨m', k, t, writer, hc, hmove⟩ := intent_removed he₁ he'
      exact absurd (hn₁ ▸ removal_submitted he₁ hc hmove) hs'
    | some e' =>
      have hk := intent_keeps_succ he₁ he'
      exact ⟨e', rfl, hk.nonce.trans hn₁, hk.requesterHash.trans hr₁⟩

theorem not_submitted_of_fresh (h : ρ.sends n t (.mark (.reserved id e true))) :
    ¬ Submitted ρ n e.nonce := by
  rintro ⟨m, b, hm, ha, hn⟩
  obtain ⟨j, t', hj, hs, i, e', hi, hmark, -, hq, -⟩ := acts_demanded ha rfl
  have hu := (fresh_mark hmark).1
  rw [← hq, hn] at hu
  have := unspent_once hu hmark rfl (fresh_mark h).1 h rfl
  omega

theorem fresh_stored (h : ρ.sends n t (.mark (.reserved id e true))) :
    ∃ e', intentAt ρ n id = some e' ∧ e'.nonce = e.nonce ∧ e'.requesterHash = e.requesterHash := by
  obtain ⟨-, k, hk, he⟩ := fresh_mark h
  exact intent_stays he hk (not_submitted_of_fresh h)

theorem removed_between {n' t' : Nat} (hlt : n < n') (h : ρ.sends n t (.mark (.reserved id e true)))
    (h' : ρ.sends n' t' (.mark (.reserved id e' true))) :
    ∃ r i, n ≤ r ∧ r < n' ∧ intentAt ρ r id = some i ∧ intentAt ρ (r + 1) id = none := by
  obtain ⟨i, hi, hin, -⟩ := fresh_stored h
  obtain ⟨i', hi', hin', -⟩ := fresh_stored h'
  have hne : e'.nonce ≠ e.nonce := by
    intro heq
    have := unspent_once (fresh_mark h).1 h rfl (heq ▸ (fresh_mark h').1) h' rfl
    omega
  obtain ⟨r, hnr, hrn, ⟨j, hj, hjn⟩, hlost⟩ := exists_last_instant
    (P := fun r => ∃ j, intentAt ρ r id = some j ∧ j.nonce = e.nonce) hlt.le ⟨i, hi, hin⟩ (by
      rintro ⟨j, hj, hjn⟩
      rw [hi'] at hj
      cases hj
      exact hne (hin'.symm.trans hjn))
  refine ⟨r, j, hnr, hrn, hj, ?_⟩
  by_contra hsome
  obtain ⟨j', hj'⟩ := Option.ne_none_iff_exists'.mp hsome
  exact hlost ⟨j', hj', (intent_keeps_succ hj hj').nonce.trans hjn⟩

theorem nonce_never_returns (he : intentAt ρ n id = some e) (hn : intentAt ρ (n + 1) id = none)
    {n' : Nat} (hlt : n < n') : ∀ e', intentAt ρ n' id = some e' → e'.nonce ≠ e.nonce := by
  obtain ⟨m, k, t, writer, hc, hmove⟩ := intent_removed he hn
  -- the thread that drew the nonce was told before the release that its intent is stored
  obtain ⟨i, b, hi, ha, hq⟩ := removal_submitted he hc hmove
  obtain ⟨j, t₀, hj, -, l, e₀, hl, hmark, -, hq₀, -⟩ := acts_demanded ha rfl
  have hun₀ := (fresh_mark hmark).1
  rw [← hq₀, hq] at hun₀
  induction hlt with
  | refl =>
    intro e' he'
    rw [hn] at he'
    cases he'
  | @step n' hnn ih =>
    intro e' he' heq
    rcases intent_step ρ n' id with h | ⟨m', k', t', writer', hc', hmove'⟩
    · exact ih e' (h.symm.trans he') heq
    rw [he'] at hmove'
    generalize hbefore : intentAt ρ n' id = before at hmove'
    cases hmove' with
    | pin | mark => exact ih _ hbefore heq
    | reserve ha' =>
      obtain ⟨l', hml, hlk, hun'⟩ := ha'
      rw [heq] at hun'
      -- the reservation read the ledger after the release
      have hnm : n < m' := by
        by_contra hle
        have hv := hc.version
        have hnn' : n + 1 ≤ n' := hnn
        rw [hc'.read n (by omega) (by omega), hc'.read (n + 1) (by omega) hnn'] at hv
        exact lt_irrefl _ hv
      obtain ⟨d, hd, hget, hsil⟩ := hun'
      obtain ⟨d₀, hd₀, hget₀, -⟩ := hun₀
      obtain ⟨rfl, rfl⟩ := nonce_unique ρ hget hget₀
      exact (hsil l (by omega) (by omega)).1 _ hmark rfl

/-- In every run: between two fresh reservations of a name its intent is removed; the intent reported
as fresh is then in the ledger; a KovaBuild Create is sent only by a request that was told so, for
the name and with the nonce it was told, and once for each time; and only such a request is answered
with a created build. -/
theorem one_create_per_reservation (ρ : w.Execution) :
    (∀ n n' t t' id e e', n < n' → ρ.sends n t (.mark (.reserved id e true)) →
      ρ.sends n' t' (.mark (.reserved id e' true)) →
      ∃ r i, n ≤ r ∧ r < n' ∧ (ρ.store r).queue.data.intents.lookup id = some i ∧
        (ρ.store (r + 1)).queue.data.intents.lookup id = none) ∧
    (∀ n t id e, ρ.sends n t (.mark (.reserved id e true)) →
      ∃ e', (ρ.store n).queue.data.intents.lookup id = some e' ∧ e'.nonce = e.nonce) ∧
    (∀ n t b, ρ.sends n t (.createBuild b) →
      ∃ m e, m < n ∧ ρ.sends m t (.mark (.reserved b.name e true)) ∧
        b.annotations.queueIntent = e.nonce ∧
        ∀ j b', m < j → j < n → ¬ ρ.sends j t (.createBuild b')) ∧
    (∀ n n' t b b', n < n' → ρ.sends n t (.createBuild b) → ρ.sends n' t (.createBuild b') →
      ∃ m e, n < m ∧ m < n' ∧ ρ.sends m t (.mark (.reserved b'.name e true))) ∧
    ∀ n t id b, ρ.sends n t (.mark (.responded id (.accepted b))) →
      ∃ m e, m < n ∧ ρ.sends m t (.mark (.reserved id e true)) := by
  refine ⟨fun n n' t t' id e e' hlt h h' => removed_between hlt h h', fun n t id e h => ?_,
    fun n t b h => ?_, fun n n' t b b' hlt h h' => ?_, fun n t id b h => ?_⟩
  · obtain ⟨e', he', hn, -⟩ := fresh_stored h
    exact ⟨e', he', hn⟩
  · obtain ⟨m, e, hm, hmark, hsil, hn, -⟩ := sends_demanded ρ n t _ h
    exact ⟨m, e, hm, hmark, hn, fun j b' hmj hjn hs => (hsil j hmj.le hjn).1 _ hs trivial⟩
  · obtain ⟨m, e, hm, hmark, hsil, -⟩ := sends_demanded ρ n' t _ h'
    refine ⟨m, e, ?_, hm, hmark⟩
    by_contra hle
    have hne : n ≠ m := by
      rintro rfl
      cases (h.unique hmark).2
    exact (hsil n (by omega) hlt).1 _ h trivial
  · obtain ⟨e, m, hm, hmark⟩ := sends_demanded ρ n t _ h
    exact ⟨m, e, hm, hmark⟩

end KovaService.Safety
