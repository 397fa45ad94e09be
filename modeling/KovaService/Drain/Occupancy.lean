import KovaService.Drain.System
import KovaService.Drain.Inventory

/-!
Recovery drain: each name is occupied at most once.

A run sends a tombstone Create only as the holder of the name's attempt record: it was answered with
the record it created and read the same record back.  Since a record stays, only one run of the epoch
ever holds it, and a run sends one Create for it.
-/

namespace KovaService.Drain

open Api Ledger Lib

variable {exp : Expectation} {q : Request}

def tombstoneOf : Request → Option (Kind × String)
  | .createBuild b => some (.kovaBuild, b.metadata.name)
  | .createPod p => some (.pod, p.metadata.name)
  | _ => none

def createsTombstone (q : Request) : Prop := (tombstoneOf q).isSome

def weighty (q : Request) : Prop := createsTombstone q ∨ ∃ i report err, q = .returned i report err

theorem Target.tombstone_request (exp : Expectation) (item : Target) :
    (match item.tombstone exp with
      | .build b => tombstoneOf (.createBuild b)
      | .pod p => tombstoneOf (.createPod p)) = some (item.kind, item.name) := by
  unfold Target.tombstone
  cases item.kind <;> rfl

variable {item : Target} {i : Input} {Fail : String → Nat → Prop} {P : Request → Prop} {kind : Kind}

section Runs

variable {T : Tools} {epoch : EpochIdentity} {s₀ : Cluster} (ρ : Run (drains T epoch) s₀)

/-- Before instant `n` thread `t` created the attempt record of the name, at instant `i`, and read it
back, and has created no tombstone since. -/
structure Recorded (t : Nat) (kind : Kind) (name : String) (n i : Nat) : Prop where
  proof : ∃ j created observed, i < j ∧ j < n ∧
    ρ.gets i t (.createConfigMap (newAttempt T epoch kind name)) (.ok created) ∧
    ρ.gets j t (.getConfigMap (newAttempt T epoch kind name).metadata.key) (.ok observed) ∧
    created.metadata.uid = observed.metadata.uid ∧ created.metadata.uid ≠ ""
  quiet : ρ.silent t createsTombstone i n

def Observes (t : Nat) (key : Key) (m : Nat) : Occupant → Prop
  | .build b => ρ.gets m t (.getBuild key) (.ok b)
  | .pod p => ρ.gets m t (.getPod key) (.ok p)

/-- Before instant `n` thread `t` read the name of the target as held by an object that passes the
check of tombstones or of originals. -/
def HeldBefore (exp : Expectation) (t n : Nat) (item : Target) : Prop :=
  ∃ m o, m < n ∧ Observes ρ t { namespaceName := exp.epoch.namespaceName, name := item.name } m o ∧
    o.kind = item.kind ∧ o.metadata.held ∧
    (qualifyTombstone exp item o = .ok () ∨ qualifyOriginal T item o = .ok ())

/-- Every name of a supplied intent was read as held by its original or by a tombstone, and every
signed receipt has an intent. -/
def Occupied (i : Input) (t n : Nat) : Prop :=
  (∀ ref ∈ i.expected.receipts, ∃ d ∈ i.intents, receiptDataKey d = refKey ref.kind ref.name) ∧
    ∀ d ∈ i.intents, ∀ x ∈ linkedNames d, ∃ m o, m < n ∧
      Observes ρ t { namespaceName := i.expected.epoch.namespaceName, name := x.2 } m o ∧
      o.kind = x.1 ∧ o.metadata.held ∧
      (MatchesReceipts T i o ∨ InertTombstone i.expected x.2 o)

def Demand (n t : Nat) (q : Request) : Prop :=
  (∀ kind name, tombstoneOf q = some (kind, name) → ∃ i, Recorded ρ t kind name n i) ∧
    ∀ i report err, q = .returned i report err → report.stage = "occupied-not-drained" →
      Occupied ρ i t n

variable {ρ} {t : Nat} {n : Nat}

theorem demand_of_light (h : ¬ weighty q) : Demand ρ n t q := by
  refine ⟨fun kind name hq => ?_, fun i report err hq => ?_⟩
  · exact absurd (.inl (by rw [createsTombstone, hq]; rfl)) h
  · exact absurd (.inr ⟨i, report, err, hq⟩) h

theorem Recorded.later {name : String} {m i : Nat} (h : Recorded ρ t kind name n i) (hnm : n ≤ m)
    (hq : ρ.silent t createsTombstone n m) : Recorded ρ t kind name m i := by
  obtain ⟨⟨j, created, observed, hij, hjn, hrest⟩, hquiet⟩ := h
  exact ⟨⟨j, created, observed, hij, by omega, hrest⟩, Run.silent_trans hquiet hq⟩

theorem HeldBefore.later {m : Nat} (h : HeldBefore ρ exp t n item) (hnm : n ≤ m) :
    HeldBefore ρ exp t m item := by
  obtain ⟨k, o, hk, hrest⟩ := h
  exact ⟨k, o, by omega, hrest⟩

theorem never_ask (h : ¬ P q) : (ask q).run.Never P :=
  Fallible.never_lift (Prog.never_perform h)

theorem never_ofExcept {α : Type} (x : Except String α) : (ofExcept x).run.Never P := by
  cases x <;> trivial

theorem light_read (h : tombstoneOf q = none) (hr : ∀ i report err, q ≠ .returned i report err) :
    ¬ weighty q := by
  rintro (hq | ⟨i, report, err, hq⟩)
  · rw [createsTombstone, h] at hq
    cases hq
  · exact hr i report err hq

theorem light_of_distant (h : distant q) : ¬ weighty q := by
  cases q <;> simp_all [distant, weighty, createsTombstone, tombstoneOf]

theorem qualifyStop_light (exp : Expectation) : (qualifyStopAndNamespace T exp).run.Never weighty :=
  (qualifyStop_distant T exp).never fun _ => light_of_distant

variable {i₀ : Nat} {α : Type}

theorem wpE_ask {Post : Answer q → Nat → Prop} (hq : ¬ weighty q)
    (hP : ∀ j m r, i₀ ≤ j → j < m → ρ.rests t i₀ j → ρ.sends j t q → ρ.rests t (j + 1) m →
      ρ.gets m t q r → Post r (m + 1)) :
    ρ.wpE (Demand ρ) t (ask q) i₀ Post Fail :=
  Run.wpE_lift.mpr (Run.wp_perform (fun _ _ _ => demand_of_light hq) hP)

theorem wpE_light {p : D α} (hp : p.run.Never weighty) :
    ρ.wpE (Demand ρ) t p i₀ (fun _ n => ρ.silent t createsTombstone i₀ n)
      (fun _ n => ρ.silent t createsTombstone i₀ n) := by
  have hw : ρ.wpE (Demand ρ) t p i₀ (fun _ _ => True) (fun _ _ => True) :=
    Run.wpE_of_never hp fun n q hq => demand_of_light hq
  refine Run.wpE_mono (Run.wpE_silent (hp.mono fun q hq => Or.inl hq) hw) ?_ ?_
  · exact fun _ _ _ h => h.2
  · exact fun _ _ _ h => h.2

theorem wpE_guarded {p : D Unit} {f : Except String Unit → D α} {Post : α → Nat → Prop}
    (hp : p.run.Never weighty) (hok : ∀ n, i₀ ≤ n → ρ.silent t createsTombstone i₀ n →
      ρ.wpE (Demand ρ) t (f (.ok ())) n Post Fail)
    (herr : ∀ e n, ρ.wpE (Demand ρ) t (f (.error e)) n Post Fail) :
    ρ.wpE (Demand ρ) t (p.attempt >>= f) i₀ Post Fail := by
  refine Run.wpE_bind.mpr (Run.wpE_attempt.mpr ?_)
  exact Run.wpE_mono (wpE_light hp) (fun _ n hn h => hok n hn h) fun e n _ _ => herr e n

theorem attemptProved_uid {expected : ConfigMap} {created observed : Except ApiErr ConfigMap}
    (h : (!attemptProved expected created observed) = false) :
    ∃ c o, created = .ok c ∧ observed = .ok o ∧ c.metadata.uid = o.metadata.uid ∧
      c.metadata.uid ≠ "" := by
  cases created with
  | error e => cases h
  | ok c =>
    cases observed with
    | error e => cases h
    | ok o =>
      simp only [attemptProved, Bool.not_eq_false', Bool.and_eq_true, bne_iff_ne,
        beq_iff_eq] at h
      exact ⟨c, o, rfl, rfl, h.2, h.1.2⟩

theorem recordAttemptOnce_recorded (hexp : exp.epoch = epoch) (item : Target) :
    ρ.wpE (Demand ρ) t (recordAttemptOnce T exp item) i₀
      (fun created n => created → ∃ i, Recorded ρ t item.kind item.name n i)
      (fun _ _ => True) := by
  subst hexp
  refine Run.wpE_bind.mpr (wpE_ask (light_read rfl (by simp)) fun _ m r _ _ _ _ _ _ => ?_)
  cases r with
  | ok existing =>
    refine Run.wpE_bind.mpr (Run.wpE_failIf.mpr ⟨fun _ => trivial, fun _ => ?_⟩)
    exact Run.wpE_pure.mpr fun h => by cases h
  | error e =>
    refine Run.wpE_bind.mpr (Run.wpE_failIf.mpr ⟨fun _ => trivial, fun _ => ?_⟩)
    refine wpE_guarded (qualifyStop_light exp) (fun n _ _ => ?_) fun _ _ => trivial
    refine Run.wpE_bind.mpr (wpE_ask (light_read rfl (by simp)) fun _ i created _ _ _ _ _ hc => ?_)
    refine Run.wpE_bind.mpr
      (wpE_ask (light_read rfl (by simp)) fun j' j observed hij hj hr hs hr' ho => ?_)
    refine Run.wpE_bind.mpr (Run.wpE_failIf.mpr ⟨fun _ => trivial, fun hproof => ?_⟩)
    refine Run.wpE_pure.mpr fun _ => ⟨i, ?_⟩
    obtain ⟨c, o, rfl, rfl, huid, hne⟩ := attemptProved_uid hproof
    refine ⟨⟨j, c, o, by omega, Nat.lt_succ_self j, hc, ho, huid, hne⟩, ?_⟩
    -- from its answer on, the thread has only read the record back
    have hread : ρ.silent t createsTombstone (i + 1) (j + 1) :=
      Run.silent_exchange (by simp [createsTombstone, tombstoneOf]) hr hs hr' ho
    refine Run.silent_trans (fun m hm hm' => ?_) hread
    obtain rfl : m = i := by omega
    refine ⟨fun q hs' => absurd hc (Run.not_gets_of_sends hs'), fun q r' hg => ?_⟩
    rw [← Run.gets_unique hc hg]
    simp [createsTombstone, tombstoneOf]

theorem getTarget_observes (namespaceName : String) (item : Target) :
    ρ.wpE (Demand ρ) t (getTarget namespaceName item) i₀
      (fun r n => ∀ o, r = .ok o → ∃ m, m < n ∧
        Observes ρ t { namespaceName := namespaceName, name := item.name } m o ∧
        o.kind = item.kind)
      (fun _ _ => True) := by
  unfold getTarget
  cases hk : item.kind with
  | kovaBuild =>
    refine Run.wpE_bind.mpr (wpE_ask (light_read rfl (by simp)) fun _ m r _ _ _ _ _ hg => ?_)
    refine Run.wpE_pure.mpr fun o ho => ?_
    cases r with
    | error e => cases ho
    | ok b =>
      cases ho
      exact ⟨m, Nat.lt_succ_self m, hg, rfl⟩
  | pod =>
    refine Run.wpE_bind.mpr (wpE_ask (light_read rfl (by simp)) fun _ m r _ _ _ _ _ hg => ?_)
    refine Run.wpE_pure.mpr fun o ho => ?_
    cases r with
    | error e => cases ho
    | ok b =>
      cases ho
      exact ⟨m, Nat.lt_succ_self m, hg, rfl⟩

theorem createTarget_demanded {i : Nat} (h : Recorded ρ t item.kind item.name i₀ i) :
    ρ.wpE (Demand ρ) t (createTarget (item.tombstone exp)) i₀ (fun _ _ => True)
      (fun _ _ => True) := by
  have hreq := item.tombstone_request exp
  have demand : ∀ q, tombstoneOf q = some (item.kind, item.name) → ∀ j, i₀ ≤ j →
      ρ.rests t i₀ j → Demand ρ j t q := by
    intro q hq j hj hr
    refine ⟨fun kind name he => ?_, fun i report err he => ?_⟩
    · rw [hq] at he
      cases he
      exact ⟨i, h.later hj hr.silent⟩
    · rw [he] at hq
      cases hq
  cases ho : item.tombstone exp with
  | build b =>
    rw [ho] at hreq
    refine Run.wpE_bind.mpr (Run.wpE_lift.mpr (Run.wp_perform (demand _ hreq) ?_))
    exact fun _ _ _ _ _ _ _ _ _ => Run.wpE_pure.mpr trivial
  | pod p =>
    rw [ho] at hreq
    refine Run.wpE_bind.mpr (Run.wpE_lift.mpr (Run.wp_perform (demand _ hreq) ?_))
    exact fun _ _ _ _ _ _ _ _ _ => Run.wpE_pure.mpr trivial

theorem createTombstone_demanded {i : Nat} (h : Recorded ρ t item.kind item.name i₀ i) :
    ρ.wpE (Demand ρ) t (createTombstone T exp item) i₀ (fun _ _ => True) (fun _ _ => True) := by
  refine wpE_guarded (qualifyStop_light exp) (fun n hn hq => ?_) fun _ _ => trivial
  refine Run.wpE_seq (createTarget_demanded (h.later hn hq)) (fun created n' _ _ => ?_)
    fun _ _ _ _ => trivial
  refine Run.wpE_seq (getTarget_observes _ item) (fun r _ _ _ => ?_) fun _ _ _ _ => trivial
  cases r with
  | error e => trivial
  | ok observed =>
    cases created with
    | error e => trivial
    | ok proposed =>
      refine Run.wpE_bind.mpr (Run.wpE_failIf.mpr ⟨fun _ => trivial, fun _ => ?_⟩)
      exact Run.wpE_bind.mpr (Run.wpE_failIf.mpr ⟨fun _ => trivial, fun _ => trivial⟩)

theorem hold_light (exp : Expectation) (o : Occupant) : (hold T exp o).run.Never weighty := by
  unfold hold
  split
  · exact Fallible.never_pure _
  · refine Fallible.never_bind (Fallible.never_attempt (qualifyStop_light exp)) fun r => ?_
    cases r with
    | error e => exact Fallible.never_throw _
    | ok u =>
      refine Fallible.never_bind ?_ fun r => ?_
      · cases o with
        | build b =>
          exact Fallible.never_bind (never_ask (light_read rfl (by simp))) fun _ =>
            Fallible.never_pure _
        | pod p =>
          exact Fallible.never_bind (never_ask (light_read rfl (by simp))) fun _ =>
            Fallible.never_pure _
      · cases r with
        | error e => exact Fallible.never_throw _
        | ok o => exact Fallible.never_pure _

theorem readHeld_held (exp : Expectation) (item : Target) (tombstone : Bool) (uid : UID) :
    ρ.wpE (Demand ρ) t (readHeld T exp item tombstone uid) i₀
      (fun _ n => HeldBefore ρ exp t n item) (fun _ _ => True) := by
  refine Run.wpE_seq (getTarget_observes _ item) (fun r n _ hr => ?_) fun _ _ _ _ => trivial
  cases r with
  | error e => trivial
  | ok readback =>
    obtain ⟨m, hm, hobs, hkind⟩ := hr readback rfl
    refine Run.wpE_bind.mpr (Run.wpE_failIf.mpr ⟨fun _ => trivial, fun hc => ?_⟩)
    simp only [Bool.or_eq_false_iff, Bool.not_eq_false'] at hc
    cases hq : qualifyOccupant T exp item tombstone readback with
    | error e => trivial
    | ok u =>
      refine ⟨m, readback, hm, hobs, hkind, hc.2, ?_⟩
      unfold qualifyOccupant at hq
      split_ifs at hq
      · exact .inl hq
      · exact .inr hq

theorem retain_held (exp : Expectation) (item : Target) (observed : Occupant) :
    ρ.wpE (Demand ρ) t (retain T exp item observed) i₀
      (fun _ n => HeldBefore ρ exp t n item) (fun _ _ => True) := by
  refine Run.wpE_bind.mpr (Run.wpE_failIf.mpr ⟨fun _ => trivial, fun _ => ?_⟩)
  refine Run.wpE_seq (wpE_light (never_ofExcept _)) (fun _ _ _ _ => ?_) fun _ _ _ _ => trivial
  refine Run.wpE_seq (wpE_light (hold_light exp observed)) (fun observed' _ _ _ => ?_)
    fun _ _ _ _ => trivial
  refine Run.wpE_seq (readHeld_held exp item _ _) (fun readback n _ hheld => ?_)
    fun _ _ _ _ => trivial
  refine wpE_guarded (qualifyStop_light exp) (fun n' hn _ => ?_) fun _ _ => trivial
  exact Run.wpE_pure.mpr (hheld.later hn)

theorem occupy_held (hexp : exp.epoch = epoch) (item : Target) :
    ρ.wpE (Demand ρ) t (occupy T exp item) i₀
      (fun _ n => HeldBefore ρ exp t n item) (fun _ _ => True) := by
  refine Run.wpE_seq (getTarget_observes _ item) (fun r _ _ _ => ?_) fun _ _ _ _ => trivial
  cases r with
  | ok observed => exact retain_held exp item observed
  | error e =>
    refine Run.wpE_bind.mpr (Run.wpE_failIf.mpr ⟨fun _ => trivial, fun _ => ?_⟩)
    refine Run.wpE_seq (recordAttemptOnce_recorded hexp item) (fun created _ _ hrec => ?_)
      fun _ _ _ _ => trivial
    refine Run.wpE_bind.mpr (Run.wpE_failIf.mpr ⟨fun _ => trivial, fun hc => ?_⟩)
    obtain ⟨i, hi⟩ := hrec (by simpa using hc)
    refine Run.wpE_seq (createTombstone_demanded hi) (fun observed _ _ _ => ?_)
      fun _ _ _ _ => trivial
    exact retain_held exp item observed

theorem occupyAll_held (hexp : exp.epoch = epoch) (targets : List Target)
    (done : List Disposition) :
    ρ.wp (Demand ρ) t (occupyAll T exp targets done) i₀
      (fun x n => x.2 = none → ∀ item ∈ targets, HeldBefore ρ exp t n item) := by
  induction targets generalizing done i₀ with
  | nil => exact fun _ item hi => absurd hi List.not_mem_nil
  | cons item rest ih =>
    refine Run.wp_bind.mpr (Run.wp_mono (occupy_held hexp item) fun r n _ hr => ?_)
    cases r with
    | error e => exact fun h => by cases h
    | ok d =>
      refine Run.wp_mono (ih (done ++ [d])) fun x m hm hx hnone item' hi => ?_
      rcases List.mem_cons.mp hi with rfl | hi
      · exact HeldBefore.later hr hm
      · exact hx hnone item' hi

theorem preflight_qualified (i : Input) :
    ρ.wpE (Demand ρ) t (preflight T i) i₀ (fun targets _ => Qualified T i targets)
      (fun _ _ => True) := by
  refine Run.wp_mono (Run.wp_of_ensures (preflight_distant T i) fun n q hq =>
    demand_of_light (light_of_distant hq)) fun r _ _ hr => ?_
  cases r with
  | error e => trivial
  | ok targets => exact hr targets rfl

theorem occupied_of_held {targets : List Target} (hq : Qualified T i targets)
    (hh : ∀ item ∈ targets, HeldBefore ρ i.expected t n item) : Occupied ρ i t n := by
  refine ⟨hq.signed, fun d hd x hx => ?_⟩
  obtain ⟨item, hitem, hkind, hname⟩ := linkTargets_covers hq.linked hd hx
  obtain ⟨m, o, hm, hobs, hok, hheld, ho⟩ := hh item hitem
  refine ⟨m, o, hm, hname ▸ hobs, hok.trans hkind, hheld, ?_⟩
  rcases ho with ho | ho
  · exact .inr (hname ▸ inertTombstone_of_qualified ho)
  · exact .inl (matchesReceipts_of_original hq.linked hitem ho)

theorem drain_occupied (hexp : i.expected.epoch = epoch) :
    ρ.wp (Demand ρ) t (drain T i) i₀
      (fun x n => x.1.stage = "occupied-not-drained" → Occupied ρ i t n) := by
  unfold drain
  split
  · exact fun h => absurd h (by decide)
  split
  · exact fun h => absurd h (by simp)
  next digest _ =>
  refine Run.wp_bind.mpr (Run.wp_mono (preflight_qualified i) fun r _ _ hr => ?_)
  cases r with
  | error e => exact fun h => absurd h (by simp)
  | ok targets =>
    refine Run.wp_bind.mpr (Run.wp_mono (occupyAll_held hexp targets []) fun x n _ hx => ?_)
    obtain ⟨dispositions, err⟩ := x
    cases err with
    | some e => exact fun h => absurd h (by simp)
    | none =>
      refine Run.wp_bind.mpr
        (Run.wp_mono (wpE_light (qualifyStop_light i.expected)) fun r m hm _ => ?_)
      cases r with
      | error e => exact fun h => absurd h (by simp)
      | ok u =>
        refine fun _ => occupied_of_held hr fun item hi => ?_
        exact (hx rfl item hi).later hm

theorem Occupied.later {m : Nat} (h : Occupied ρ i t n) (hnm : n ≤ m) : Occupied ρ i t m := by
  refine ⟨h.1, fun d hd x hx => ?_⟩
  obtain ⟨k, o, hk, hrest⟩ := h.2 d hd x hx
  exact ⟨k, o, by omega, hrest⟩

theorem sends_demanded (h : ρ.sends n t q) : Demand ρ n t q := by
  refine Run.sends_guarded (G := Demand ρ) (fun n t j _ _ => ?_) n t q h
  refine Run.wp_bind.mpr (Run.wp_mono (drain_occupied j.2) fun x m _ hx => ?_)
  refine Run.wp_perform (fun k hk _ => ⟨fun kind name hq => ?_, fun i report err hq hstage => ?_⟩)
    fun _ _ _ _ _ _ _ _ _ => trivial
  · cases hq
  · injection hq with hi hreport _
    subst hi hreport
    exact (hx hstage).later hk

/-- The record of a name is held by one thread, and stands for one tombstone Create. -/
theorem recorded_unique {t' n' i i' : Nat} {name : String} {q' : Request} (hs : ρ.sends n t q)
    (hs' : ρ.sends n' t' q') (hq : tombstoneOf q = some (kind, name))
    (hq' : tombstoneOf q' = some (kind, name)) (h : Recorded ρ t kind name n i)
    (h' : Recorded ρ t' kind name n' i') : n = n' := by
  obtain ⟨j, created, _, hij, hjn, hc, -⟩ := h.proof
  obtain ⟨j', created', _, hij', hjn', hc', -⟩ := h'.proof
  have hheld : (newAttempt T epoch kind name).metadata.held := by
    simp [newAttempt, ObjectMeta.held]
  obtain rfl : i = i' := created_unique hc hc' rfl hheld hheld
  -- the answer at one instant went to one thread
  obtain rfl : t = t' := by
    have ha := hc.actor
    rw [hc'.actor] at ha
    exact (Option.some.inj ha).symm
  rcases Nat.lt_trichotomy n n' with hlt | heq | hgt
  · exact absurd (by rw [createsTombstone, hq]; rfl) ((h'.quiet n (by omega) hlt).1 q hs)
  · exact heq
  · exact absurd (by rw [createsTombstone, hq']; rfl) ((h.quiet n' (by omega) hgt).1 q' hs')

end Runs

/-- In every interleaving of drain runs of one epoch: no two tombstone Creates are for one kind and
name; each was sent by a run that had created the name's attempt record itself and read it back with
the same UID; and a run that returns occupied-not-drained has read every name of its signed receipts
as held by an object that matches them or by an inert tombstone of its incident. -/
theorem drain_occupies_once (T : Tools) (epoch : EpochIdentity) (s₀ : Cluster)
    (ρ : Run (drains T epoch) s₀) :
    (∀ n t q n' t' q' x, ρ.sends n t q → ρ.sends n' t' q' → tombstoneOf q = some x →
      tombstoneOf q' = some x → n = n') ∧
    (∀ n t q kind name, ρ.sends n t q → tombstoneOf q = some (kind, name) →
      ∃ i j created observed, i < j ∧ j < n ∧
        ρ.gets i t (.createConfigMap (newAttempt T epoch kind name)) (.ok created) ∧
        (ρ.store (i + 1)).configMaps.lookup (newAttempt T epoch kind name).metadata.key =
          some created ∧
        ρ.gets j t (.getConfigMap (newAttempt T epoch kind name).metadata.key) (.ok observed) ∧
        created.metadata.uid = observed.metadata.uid ∧ created.metadata.uid ≠ "") ∧
    ∀ n t i report err, ρ.sends n t (.returned i report err) →
      report.stage = "occupied-not-drained" → Occupied ρ i t n := by
  refine ⟨?_, ?_, ?_⟩
  · intro n t q n' t' q' x hs hs' hq hq'
    obtain ⟨kind, name⟩ := x
    obtain ⟨i, hi⟩ := (sends_demanded hs).1 kind name hq
    obtain ⟨i', hi'⟩ := (sends_demanded hs').1 kind name hq'
    exact recorded_unique hs hs' hq hq' hi hi'
  · intro n t q kind name hs hq
    obtain ⟨i, hi⟩ := (sends_demanded hs).1 kind name hq
    obtain ⟨j, created, observed, hij, hjn, hc, ho, huid, hne⟩ := hi.proof
    exact ⟨i, j, created, observed, hij, hjn, hc, (created_effect hc).2.1, ho, huid, hne⟩
  · intro n t i report err hs hstage
    exact (sends_demanded hs).2 i report err rfl hstage

def sampleReceipt : ConfigMap where
  metadata :=
    { namespaceName := "kova-receipts", name := queueReceiptPrefix ++ zeros 32, uid := "r"
      resourceVersion := "1", labels := StringMap.ofList [(queueReceiptLabel, "queue-intent")] }
  immutable := some true
  data := StringMap.ofList (queueFields sampleQueue)

def sampleStop : ConfigMap where
  metadata := { namespaceName := "kova", name := "stop", uid := "s", resourceVersion := "1" }
  immutable := some true
  data := StringMap.ofList [("stop", "1")]

def sampleNamespace (name uid : String) : Namespace :=
  { metadata := { name := name, uid := uid }, phase := "Active" }

def sampleCluster : Cluster where
  namespaces := (∅ : Finmap fun _ : String => Namespace).insert "kova" (sampleNamespace "kova" "n")
    |>.insert "kova-receipts" (sampleNamespace "kova-receipts" "m")
  configMaps := (∅ : Finmap fun _ : Key => ConfigMap).insert sampleStop.metadata.key sampleStop
    |>.insert sampleReceipt.metadata.key sampleReceipt
  builds := ∅
  pods := ∅

def sampleChoice : Choice where
  configMap := fun cm =>
    { cm with metadata := { cm.metadata with uid := "x", resourceVersion := "2" } }
  build := fun b => { b with metadata := { b.metadata with uid := "y", resourceVersion := "3" } }
  items := [sampleReceipt]

def exchanges : Nat → List (Label Choice Event (EpochInput sampleEpoch))
  | 0 => []
  | n + 1 => .send 0 :: .answer 0 sampleChoice :: exchanges n

def sampleSchedule : List (Label Choice Event (EpochInput sampleEpoch)) :=
  .spawn 0 ⟨sampleInput, rfl⟩ :: exchanges 25

def sending (test : Request → Bool) (m : Machine Request Answer Cluster) : Bool :=
  match m.threads 0 with
  | .ready (.call q _) => test q
  | _ => false

def createsFirst (q : Request) : Bool := tombstoneOf q == some (.kovaBuild, "b1")

def returnsOccupied : Request → Bool
  | .returned _ report none => report.stage == "occupied-not-drained"
  | _ => false

theorem sampleSchedule_steps : ∃ m m' m'',
    (drains sampleTools sampleEpoch).exec (Semantics.start sampleCluster)
      (sampleSchedule.take 31) = some m ∧ sending createsFirst m ∧
    (drains sampleTools sampleEpoch).exec m ((sampleSchedule.drop 31).take 18) = some m' ∧
      sending returnsOccupied m' ∧
    (drains sampleTools sampleEpoch).exec m' ((sampleSchedule.drop 31).drop 18) = some m'' := by
  have h : (((drains sampleTools sampleEpoch).exec (Semantics.start sampleCluster)
      (sampleSchedule.take 31)).any fun m => sending createsFirst m &&
        ((drains sampleTools sampleEpoch).exec m ((sampleSchedule.drop 31).take 18)).any fun m' =>
          sending returnsOccupied m' && ((drains sampleTools sampleEpoch).exec m'
            ((sampleSchedule.drop 31).drop 18)).isSome) := by
    decide +kernel
  obtain ⟨m, hm, h⟩ := (Option.any_eq_true _ _).mp h
  rw [Bool.and_eq_true] at h
  obtain ⟨m', hm', h'⟩ := (Option.any_eq_true _ _).mp h.2
  rw [Bool.and_eq_true] at h'
  obtain ⟨m'', hm''⟩ := Option.isSome_iff_exists.mp h'.2
  exact ⟨m, m', m'', hm, h.1, hm', h'.1, hm''⟩

theorem drain_occupies_once_sample :
    ∃ (ρ : Run (drains sampleTools sampleEpoch) sampleCluster) (n : Nat) (q : Request) (m : Nat)
      (i : Input) (report : Report), ρ.sends n 0 q ∧ tombstoneOf q = some (.kovaBuild, "b1") ∧
      ρ.sends m 0 (.returned i report none) ∧ Occupied ρ i 0 m := by
  obtain ⟨m, m', m'', hm, hcreate, hm', hreturn, hm''⟩ := sampleSchedule_steps
  have h49 : (drains sampleTools sampleEpoch).exec (Semantics.start sampleCluster)
      (sampleSchedule.take 49) = some m' := by
    rw [show 49 = 31 + 18 from rfl, List.take_add, Semantics.exec_append, hm]
    exact hm'
  have hall : ((drains sampleTools sampleEpoch).exec (Semantics.start sampleCluster)
      sampleSchedule).isSome := by
    rw [← List.take_append_drop 49 sampleSchedule, Semantics.exec_append, h49, Option.bind_some,
      show 49 = 31 + 18 from rfl, ← List.drop_drop, hm'']
    rfl
  unfold sending at hcreate hreturn
  split at hcreate
  · next q k hk =>
    split at hreturn
    · next r k' hk' =>
      unfold returnsOccupied at hreturn
      split at hreturn
      · next i report =>
        refine ⟨(drains sampleTools sampleEpoch).runOf sampleCluster sampleSchedule hall, 31, q, 49,
          i, report, ⟨rfl, k, ?_⟩, by simpa [createsFirst] using hcreate, ⟨rfl, k', ?_⟩, ?_⟩
        · rw [Semantics.runOf_state _ hm, hk]
        · rw [Semantics.runOf_state _ h49, hk']
        · refine (drain_occupies_once _ _ _ _).2.2 49 0 i report none ⟨rfl, k', ?_⟩
            (by simpa using hreturn)
          rw [Semantics.runOf_state _ h49, hk']
      · cases hreturn
    · cases hreturn
  · cases hcreate

end KovaService.Drain
