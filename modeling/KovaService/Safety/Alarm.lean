import KovaService.Lib.Observe
import KovaService.Proof.Quiet

/-!
The orphan check of admission and of the pump, as a sequence of reads of a moving cluster.

A caller has read the ledger, then listed the builds, and `ensureNoUnreservedRunner` reads on from
there.  As long as no build is created and no reservation is removed while the reads go on, an alarm
is true of one of the moments it looked at.  A build that is created, granted and started behind the
list of builds, though, has a Pod without an owner in that list.
-/

namespace KovaService.Safety

open Lib Api Ledger Controller Proof KovaService.System

variable {w : World} {s : ReservationState} {b : KovaBuild} {e : Err}

def Reserved (s : Cluster) (b : KovaBuild) : Prop :=
  ∃ e, s.ledger.data.active.lookup b.reservationKey = some e ∧ e.buildName = b.name

def activePhase : Phase → Bool
  | .starting | .running | .verifying | .failedVerifying => true
  | _ => false

def Orphaned (s : Cluster) : Prop :=
  (∃ name b, s.builds.lookup name = some b ∧ activePhase b.status.phase ∧ ¬ Reserved s b) ∨
    ∃ name pod, s.pods.lookup name = some pod ∧ pod.buildIDLabel ≠ "" ∧
      ∀ b, s.builds.lookup pod.buildIDLabel = some b → pod.ownedByBuild b → ¬ Reserved s b

inductive Alarm (r : Reconciler) : Err → Prop
  | build (name : String) :
      Alarm r (.text ("active KovaBuild " ++ r.qualified name ++ " has no admission reservation"))
  | owner (name : String) :
      Alarm r (.text ("runner Pod " ++ r.qualified name ++ " has no matching KovaBuild owner"))
  | pod (name : String) :
      Alarm r (.text ("runner Pod " ++ r.qualified name ++ " has no admission reservation"))

def alarming (r : Reconciler) : (q : Request) → Answer q → Prop
  | .getLedger, a => ∃ e, (a : Ans LedgerMap) = .error e ∧ Alarm r e
  | .listPods, a => ∃ e, (a : Ans (List Pod)) = .error e ∧ Alarm r e
  | _, _ => False

/-- The reads of a call, each answered from the cluster of one instant. -/
def answered (ρ : w.Execution) (r : Reconciler) (i : Nat) (q : Request) (a : Answer q) : Prop :=
  wired q = false ∧ (∃ c s, w.reply (ρ.store i) q c = some (s, a)) ∧ ¬ alarming r q a

/-- A call of the check with its result: on the ledger of instant `i₀`, the builds of instant `i₁`,
and reads of its own until instant `m`. -/
structure Checked (ρ : w.Execution) (r : Reconciler) (i₀ i₁ m : Nat) (result : Except Err Unit) :
    Prop where
  ordered : i₀ ≤ i₁
  observed : ∃ builds : List KovaBuild,
    (builds : Multiset KovaBuild) = (ρ.store i₁).builds.entries.map Sigma.snd ∧
      Observed (answered ρ r) (r.ensureNoUnreservedRunner (ρ.store i₀).ledger.data builds).run i₁
        result m

variable {builds : List KovaBuild} {cm : LedgerMap}

section Reads

variable {ρ : w.Execution} {r : Reconciler} {n m : Nat}

theorem mem_listed {s : Cluster}
    (h : (builds : Multiset KovaBuild) = s.builds.entries.map Sigma.snd) :
    b ∈ builds ↔ ∃ name, s.builds.lookup name = some b := by
  rw [← Multiset.mem_coe, h, Multiset.mem_map]
  constructor
  · rintro ⟨⟨name, b'⟩, hmem, rfl⟩
    exact ⟨name, Finmap.lookup_eq_some_iff.mpr hmem⟩
  · rintro ⟨name, hl⟩
    exact ⟨⟨name, b⟩, Finmap.lookup_eq_some_iff.mp hl, rfl⟩

theorem returns_getLedger (h : getLedger.Returns (answered ρ r) n cm m) :
    ∃ i, n ≤ i ∧ i ≤ m ∧ cm = (ρ.store i).ledger := by
  obtain ⟨i, hn, hm, -, ⟨c, s, hr⟩, -⟩ := Observed.perform_iff.mp h
  refine ⟨i, hn, hm, ?_⟩
  rcases fetched_eq (answered_eq hr).2 with he | ⟨e, he, -⟩
  · exact Except.ok.inj he
  · cases he

theorem returns_listPods {pods : List Pod} (h : listPods.Returns (answered ρ r) n pods m) :
    ∃ i, n ≤ i ∧ i ≤ m ∧ ∀ p ∈ pods, ∃ name, (ρ.store i).pods.lookup name = some p := by
  obtain ⟨i, hn, hm, -, ⟨c, s, hr⟩, -⟩ := Observed.perform_iff.mp h
  refine ⟨i, hn, hm, fun p hp => ?_⟩
  have ha := (answered_eq hr).2
  cases c with
  | pods ps =>
    simp only [Choice.either, Choice.asPods] at ha
    split_ifs at ha with hps
    · cases ha
      rw [← Multiset.mem_coe, hps, Multiset.mem_map] at hp
      obtain ⟨⟨name, p'⟩, hmem, rfl⟩ := hp
      exact ⟨name, Finmap.lookup_eq_some_iff.mpr hmem⟩
    · cases ha
  | fail e => cases ha
  | _ => simp [Choice.either, Choice.asPods] at ha

theorem fails_getLedger (h : getLedger.Fails (answered ρ r) n e m) : ¬ Alarm r e := by
  obtain ⟨i, -, -, -, -, ha⟩ := Observed.perform_iff.mp h
  exact fun halarm => ha ⟨e, rfl, halarm⟩

theorem fails_listPods (h : listPods.Fails (answered ρ r) n e m) : ¬ Alarm r e := by
  obtain ⟨i, -, -, -, -, ha⟩ := Observed.perform_iff.mp h
  exact fun halarm => ha ⟨e, rfl, halarm⟩

theorem Alarm.begins (h : Alarm r e) : ∃ text, e = .text text ∧
    (text.toList.take 8 = "active K".toList ∨ text.toList.take 8 = "runner P".toList) := by
  cases h with
  | build name => exact ⟨_, rfl, .inl (by simp [String.toList_append])⟩
  | owner name => exact ⟨_, rfl, .inr (by simp [String.toList_append])⟩
  | pod name => exact ⟨_, rfl, .inr (by simp [String.toList_append])⟩

theorem validateLimits_error {cfg : Config} (h : s.validateLimits cfg = .error e) :
    ¬ Alarm r e := by
  intro ha
  obtain ⟨text, rfl, hbegin⟩ := ha.begins
  have htext : text.toList.take 8 = "active a".toList := by
    unfold ReservationState.validateLimits validateReservationCapacity at h
    split_ifs at h <;> cases h <;> decide
  rw [htext] at hbegin
  revert hbegin
  decide

theorem fails_ofAns {α : Type} {a : Except Err α} (h : (ofAns a).Fails (answered ρ r) n e m) :
    a = .error e := by
  cases h
  rfl

theorem fails_readLedger (h : r.readLedger.Fails (answered ρ r) n e m) : ¬ Alarm r e := by
  rcases Fallible.fails_bind.mp h with h | ⟨cm, i, -, hf⟩
  · exact fails_getLedger h
  · cases hg : r.genesis with
    | none =>
      rw [hg] at hf
      exact absurd hf Fallible.not_fails_pure
    | some g =>
      rw [hg] at hf
      rcases Fallible.fails_bind.mp hf with hf | ⟨_, _, -, hf⟩
      · intro ha
        obtain ⟨text, rfl, -⟩ := ha.begins
        have := fails_ofAns hf
        unfold Role.checkLedger at this
        split at this <;> cases this
      · exact absurd hf Fallible.not_fails_pure

theorem returns_readLedger (h : r.readLedger.Returns (answered ρ r) n cm m) :
    ∃ i, n ≤ i ∧ i ≤ m ∧ cm = (ρ.store i).ledger := by
  obtain ⟨cm', i, hl, hf⟩ := Fallible.returns_bind.mp h
  obtain ⟨j, hn, hj, rfl⟩ := returns_getLedger hl
  have hcm : cm = (ρ.store j).ledger ∧ i ≤ m := by
    cases hg : r.genesis with
    | none =>
      rw [hg] at hf
      exact Fallible.returns_pure.mp hf
    | some g =>
      rw [hg] at hf
      obtain ⟨_, k, ho, hp⟩ := Fallible.returns_bind.mp hf
      have hp := Fallible.returns_pure.mp hp
      exact ⟨hp.1, (Observed.le ho).trans hp.2⟩
  exact ⟨j, hn, hj.trans hcm.2, hcm.1⟩

theorem fails_covered (h : (r.reservationCovered s b).Fails (answered ρ r) n e m) :
    ¬ Alarm r e := by
  unfold Reconciler.reservationCovered at h
  cases hl : s.active.lookup b.reservationKey with
  | some entry =>
    rw [hl] at h
    exact absurd h Fallible.not_fails_pure
  | none =>
    rw [hl] at h
    intro ha
    rcases Fallible.fails_bind.mp h with h | ⟨cm, i, -, h⟩
    · exact fails_readLedger h ha
    rcases Fallible.fails_bind.mp h with h | ⟨_, _, -, h⟩
    · obtain ⟨text, rfl, -⟩ := ha.begins
      have he := fails_ofAns h
      unfold Reconciler.decodeReservations at he
      split at he <;> cases he
    rcases Fallible.fails_bind.mp h with h | ⟨_, _, -, h⟩
    · exact validateLimits_error (fails_ofAns h) ha
    · exact absurd h Fallible.not_fails_pure

/-- Neither the ledger of the caller nor that of an instant of the interval has the build's entry. -/
def Missing (ρ : w.Execution) (s : ReservationState) (b : KovaBuild) (n m : Nat) : Prop :=
  (∃ e, s.active.lookup b.reservationKey = some e ∧ e.buildName ≠ b.name) ∨
    ∃ i, n ≤ i ∧ i ≤ m ∧ ¬ Reserved (ρ.store i) b

theorem missing_of_uncovered (h : (r.reservationCovered s b).Returns (answered ρ r) n false m) :
    Missing ρ s b n m := by
  unfold Reconciler.reservationCovered at h
  cases hl : s.active.lookup b.reservationKey with
  | some entry =>
    rw [hl] at h
    have := (Fallible.returns_pure.mp h).1
    exact .inl ⟨entry, hl, by simpa using this.symm⟩
  | none =>
    rw [hl] at h
    obtain ⟨cm, i, hread, h⟩ := Fallible.returns_bind.mp h
    obtain ⟨j, hn, hj, rfl⟩ := returns_readLedger hread
    obtain ⟨_, k, h1, h⟩ := Fallible.returns_bind.mp h
    obtain ⟨_, k', h2, h⟩ := Fallible.returns_bind.mp h
    have hp := Fallible.returns_pure.mp h
    refine .inr ⟨j, hn, hj.trans ((Observed.le h1).trans ((Observed.le h2).trans hp.2)), ?_⟩
    rintro ⟨e, he, hname⟩
    have hfalse := hp.1
    simp [he, hname] at hfalse

theorem missing_of_fails {e' : Err} (h : (do
      let covered ← r.reservationCovered s b
      failIf (!covered) e' : K Unit).Fails (answered ρ r) n e m) (ha : Alarm r e) :
    Missing ρ s b n m := by
  rcases Fallible.fails_bind.mp h with h | ⟨covered, j, hc, h⟩
  · exact absurd ha (fails_covered h)
  obtain ⟨hcov, -, hj⟩ := Fallible.fails_failIf.mp h
  obtain rfl : covered = false := by simpa using hcov
  rcases missing_of_uncovered hc with he | ⟨i, hn, hi, hmiss⟩
  · exact .inl he
  · exact .inr ⟨i, hn, hi.trans hj, hmiss⟩

theorem Missing.since (h : Missing ρ s b n m) {i : Nat} (hi : i ≤ n) : Missing ρ s b i m :=
  h.imp_right fun ⟨j, hj, hm, hmiss⟩ => ⟨j, hi.trans hj, hm, hmiss⟩

/-- What an alarm says it saw: an active build of the list without an entry, or a Pod of some
instant that has no owner in the list, or an owner without an entry. -/
theorem alarm_cases (h : (r.ensureNoUnreservedRunner s builds).Fails (answered ρ r) n e m)
    (ha : Alarm r e) :
    (∃ b ∈ builds, activePhase b.status.phase ∧ Missing ρ s b n m) ∨
    ∃ i name pod, n ≤ i ∧ i ≤ m ∧ (ρ.store i).pods.lookup name = some pod ∧
      pod.buildIDLabel ≠ "" ∧
      ∀ b, builds.find? (fun b => b.name == pod.buildIDLabel) = some b →
        pod.ownedByBuild b → Missing ρ s b i m := by
  rcases Fallible.fails_bind.mp h with h | ⟨_, i, hi, h⟩
  · -- the loop over the builds
    obtain ⟨b, hb, i, hi, h⟩ := Fallible.fails_forM h
    refine .inl ⟨b, hb, ?_⟩
    split at h
    all_goals first
      | exact ⟨by simp [activePhase, *], (missing_of_fails h ha).since hi⟩
      | exact absurd h Fallible.not_fails_pure
  · -- the loop over the Pods
    have hni := Observed.le hi
    rcases Fallible.fails_bind.mp h with h | ⟨pods, j, hj, h⟩
    · exact absurd ha (fails_listPods h)
    obtain ⟨i', hi', hij, hpods⟩ := returns_listPods hj
    obtain ⟨pod, hpod, k, hk, h⟩ := Fallible.fails_forM h
    obtain ⟨name, hl⟩ := hpods pod hpod
    have hkm := Observed.le h
    refine .inr ⟨i', name, pod, hni.trans hi', by omega, hl, ?_⟩
    split_ifs at h with hlabel
    · exact absurd h Fallible.not_fails_pure
    refine ⟨by simpa using hlabel, fun b hb howned => ?_⟩
    rw [hb] at h
    rcases Fallible.fails_bind.mp h with h | ⟨_, k₁, hk₁, h⟩
    · obtain ⟨hnot, -⟩ := Fallible.fails_failIf.mp h
      simp [howned] at hnot
    · have hk₁ := (Fallible.returns_failIf.mp hk₁).2
      exact (missing_of_fails h ha).since (by omega)

end Reads

/-- No build is created after instant `i₁`: what is stored later was there under its name and uid. -/
def NoNewBuild (ρ : w.Execution) (i₁ m : Nat) : Prop :=
  ∀ i, i₁ ≤ i → i ≤ m → ∀ name b, (ρ.store i).builds.lookup name = some b →
    ∃ b', (ρ.store i₁).builds.lookup name = some b' ∧ b'.uid = b.uid

/-- No reservation is removed, or given to another build, between the two instants. -/
def NoRelease (ρ : w.Execution) (i₀ m : Nat) : Prop :=
  ∀ i j, i₀ ≤ i → i ≤ j → j ≤ m → ∀ key e, (ρ.store i).ledger.data.active.lookup key = some e →
    ∃ e', (ρ.store j).ledger.data.active.lookup key = some e' ∧ e'.buildName = e.buildName

section Quiet

variable {ρ : w.Execution} {i₀ i₁ m : Nat}

theorem find_listed {name : String}
    (h : (builds : Multiset KovaBuild) = (ρ.store i₁).builds.entries.map Sigma.snd)
    (hb : (ρ.store i₁).builds.lookup name = some b) :
    builds.find? (fun c => c.name == name) = some b := by
  have hversions := versions_ok ρ i₁
  have hname := (hversions.current name b hb).2
  cases hf : builds.find? (fun c => c.name == name) with
  | none =>
    have := List.find?_eq_none.mp hf b ((mem_listed h).mpr ⟨name, hb⟩)
    exact absurd hname (by simpa using this)
  | some c =>
    obtain ⟨name', hc⟩ := (mem_listed h).mp (List.mem_of_find?_eq_some hf)
    have hc' : c.name = name := by simpa using List.find?_some hf
    obtain rfl : name' = name := (hversions.current name' c hc).2.symm.trans hc'
    rw [← hc, hb]

theorem NoRelease.unreserved (h : NoRelease ρ i₀ m) {n i : Nat}
    (hmiss : Missing ρ (ρ.store i₀).ledger.data b n m) (h₀ : i₀ ≤ i) (hi : i ≤ n) (hm : i ≤ m) :
    ¬ Reserved (ρ.store i) b := by
  rintro ⟨e, he, hname⟩
  rcases hmiss with ⟨e₀, he₀, hother⟩ | ⟨j, hj, hjm, hmiss⟩
  · obtain ⟨e', he', hsame⟩ := h i₀ i le_rfl h₀ hm _ _ he₀
    rw [he] at he'
    cases he'
    exact hother (hsame.symm.trans hname)
  · obtain ⟨e', he', hsame⟩ := h i j h₀ (hi.trans hj) hjm _ _ he
    exact hmiss ⟨e', he', hsame.trans hname⟩

/-- While no build is created and no reservation removed, an alarm is true of an instant of the
call's reads. -/
theorem alarm_is_real (ρ : w.Execution) (r : Reconciler) {i₀ i₁ m : Nat} {result : Except Err Unit}
    (h : Checked ρ r i₀ i₁ m result) (hnew : NoNewBuild ρ i₁ m)
    (hkept : NoRelease ρ i₀ m) :
    (∀ e, result = .error e → ¬ Alarm r e) ∨ ∃ i, i₁ ≤ i ∧ i ≤ m ∧ Orphaned (ρ.store i) := by
  by_cases halarm : ∃ e, result = .error e ∧ Alarm r e
  swap
  · exact .inl fun e he ha => halarm ⟨e, he, ha⟩
  obtain ⟨e, rfl, ha⟩ := halarm
  obtain ⟨builds, hlist, hfails⟩ := h.observed
  have hm := Observed.le hfails
  refine .inr ?_
  rcases alarm_cases hfails ha with
    ⟨b, hb, hactive, hmiss⟩ | ⟨i, name, pod, hi, him, hpod, hlabel, hall⟩
  · obtain ⟨name, hl⟩ := (mem_listed hlist).mp hb
    exact ⟨i₁, le_rfl, hm, .inl ⟨name, b, hl, hactive,
      hkept.unreserved hmiss h.ordered le_rfl hm⟩⟩
  · refine ⟨i, hi, him, .inr ⟨name, pod, hpod, hlabel, fun b hb howned => ?_⟩⟩
    -- the owner of the Pod is the build that the list has under its name
    obtain ⟨b', hb', huid⟩ := hnew i hi him _ b hb
    have hname : b'.name = b.name :=
      ((versions_ok ρ i₁).current _ _ hb').2.trans ((versions_ok ρ i).current _ _ hb).2.symm
    have hkey : b'.reservationKey = b.reservationKey := by
      simp only [KovaBuild.reservationKey, hname, huid]
    have howned' : pod.ownedByBuild b' := by
      simpa only [Pod.ownedByBuild, hname, huid] using howned
    have hreal := hkept.unreserved (hall b' (find_listed hlist hb') howned')
      (h.ordered.trans hi) le_rfl him
    rintro ⟨e, he, hen⟩
    exact hreal ⟨e, hkey ▸ he, hen.trans hname.symm⟩

end Quiet

def zeros : String := String.ofList (List.replicate 64 '0')

def constantExt : Ext where
  sha256Hex _ := zeros
  specDigest _ := zeros
  dataDigest _ := "sha256:" ++ zeros
  dataBytes _ := 0
  payloadBytes _ := 0
  podTemplateDigest _ := "sha256:" ++ zeros
  reservationBytes _ := 0
  queueBytes _ := 0
  library := plainLibrary
  runnerManifestDigest := .ok
  durationString _ := ""
  timeString _ := ""

def oneSlotWorld : World where
  ext := constantExt
  genesis := none
  cfg :=
    { runnerImage := "kova", maxActiveJobs := 1, maxActiveJobsPerRequester := 1, workerSlots := 1
      buildkitPlatformAddrs := [("linux/amd64", "tcp://b")] }
  ledgerUID := "l"
  queueUID := "q"
  capacity := by decide
  queueLimits := by decide

/-- The thread sends its requests one by one and gets these answers. -/
def answers (t : Nat) (cs : List Choice) : List (Label Choice EnvAction Job) :=
  cs.flatMap fun c => [.send t, .answer t c]

def submitted : List (Label Choice EnvAction Job) :=
  .spawn 0 (.create oneSlotWorld.cfg ⟨"ann", "1"⟩ (.ok
      { targets := [⟨"t:v", "linux/amd64"⟩], source := ⟨"https://s/x.zip", "sha256:" ++ zeros⟩
        options := {} })) ::
    answers 0 [.ok, .text "x", .ok, .text (String.ofList (List.replicate 32 '1')),
      .time 1000000000, .ok, .ok, .ok, .ok, .assign "u" 1, .ok]

def storeAfter (ls : List (Label Choice EnvAction Job)) : Cluster :=
  ((oneSlotWorld.service.exec (Semantics.start oneSlotWorld.initial) ls).map Machine.store).getD
    oneSlotWorld.initial

def buildsAfter (ls : List (Label Choice EnvAction Job)) : List KovaBuild :=
  ((storeAfter ls).builds.lookup "x").toList

def podsAfter (ls : List (Label Choice EnvAction Job)) : List Pod :=
  ((storeAfter ls).pods.lookup "kova-job-x").toList

def started : List (Label Choice EnvAction Job) :=
  submitted ++ .spawn 1 (.reconcile oneSlotWorld.cfg false "x") ::
    answers 1 ((buildsAfter submitted).map .version ++
      [.ok, .ok, .ok, .ok, .ok, .builds (buildsAfter submitted), .pods [], .ok, .ok, .ok, .ok, .ok,
        .ok, .text (String.ofList (List.replicate 32 '2')), .ok, .ok, .ok, .ok, .ok,
        .assign "v" 1])

def tidy (s : Cluster) : Bool :=
  decide (s.builds.keys ⊆ {"x"}) && decide (s.pods.keys ⊆ {"kova-job-x"}) &&
    (s.builds.lookup "x").all (fun b => !activePhase b.status.phase && b.uid == "u") &&
    decide (s.ledger.data.active.keys ⊆ {"u"}) &&
    (s.ledger.data.active.lookup "u").map (·.buildName) ==
      (if oneSlotWorld.initial.ledger.resourceVersion < s.ledger.resourceVersion then some "x"
        else none) &&
    (s.pods.lookup "kova-job-x").all fun p =>
      (s.builds.lookup p.buildIDLabel).any fun b => p.ownedByBuild b &&
        (s.ledger.data.active.lookup b.reservationKey).any fun e => e.buildName == b.name

theorem key_of_lookup {β : Type} {m : Finmap fun _ : String => β} {key key' : String} {v : β}
    (hk : m.keys ⊆ {key}) (h : m.lookup key' = some v) : key' = key :=
  Finset.mem_singleton.mp (hk (Finmap.mem_keys.mpr (Finmap.mem_of_lookup_eq_some h)))

theorem not_orphaned_of_tidy {s : Cluster} (h : tidy s) : ¬ Orphaned s := by
  simp only [tidy, Bool.and_eq_true, decide_eq_true_eq] at h
  obtain ⟨⟨⟨⟨⟨hbuilds, hpods⟩, hphase⟩, -⟩, -⟩, howner⟩ := h
  rintro (⟨name, b, hb, hactive, -⟩ | ⟨name, pod, hpod, -, hall⟩)
  · obtain rfl := key_of_lookup hbuilds hb
    simp [hb, hactive] at hphase
  · obtain rfl := key_of_lookup hpods hpod
    rw [hpod, Option.all_some, Option.any_eq_true] at howner
    obtain ⟨b, hb, hany⟩ := howner
    simp only [Bool.and_eq_true, Option.any_eq_true, beq_iff_eq] at hany
    exact hall b hb hany.1 hany.2

theorem started_tidy : oneSlotWorld.service.always tidy (Semantics.start oneSlotWorld.initial)
    started := by
  decide +kernel

def startedRun : oneSlotWorld.Execution :=
  oneSlotWorld.service.runOf _ started (Semantics.exec_of_always _ started_tidy)

theorem startedRun_store (n : Nat) : startedRun.store n = storeAfter (started.take n) := by
  obtain ⟨m, hm⟩ := Option.isSome_iff_exists.mp
    (Semantics.exec_take_isSome _ (Semantics.exec_of_always _ started_tidy) n)
  simp only [storeAfter, hm, Option.map_some, Option.getD_some]
  exact congrArg Machine.store (Semantics.runOf_state _ hm)

theorem startedRun_end : startedRun.store started.length = storeAfter started := by
  rw [startedRun_store, List.take_length]

theorem startedRun_submitted : startedRun.store submitted.length = storeAfter submitted := by
  rw [startedRun_store, started, List.take_left]

theorem started_noNewBuild (m : Nat) : NoNewBuild startedRun submitted.length m := by
  intro i _ _ name b hb
  have htidy : tidy (startedRun.store i) := Semantics.runOf_always _ started_tidy i
  simp only [tidy, Bool.and_eq_true, decide_eq_true_eq] at htidy
  obtain rfl := key_of_lookup htidy.1.1.1.1.1 hb
  have huid : activePhase b.status.phase = false ∧ b.uid = "u" := by
    simpa [hb] using htidy.1.1.1.2
  have hx : ((storeAfter submitted).builds.lookup "x").map (·.uid) = some "u" := by
    decide +kernel
  rw [startedRun_submitted, huid.2]
  exact Option.map_eq_some_iff.mp hx

theorem started_noRelease (m : Nat) : NoRelease startedRun submitted.length m := by
  have hentry (n : Nat) : tidy (startedRun.store n) := Semantics.runOf_always _ started_tidy n
  simp only [tidy, Bool.and_eq_true, decide_eq_true_eq, beq_iff_eq] at hentry
  intro i j _ hij _ key e he
  obtain rfl := key_of_lookup (hentry i).1.1.2 he
  have hrv := (ledger_versioned startedRun).mono hij
  have hi := (hentry i).1.2
  have hj := (hentry j).1.2
  rw [he] at hi
  split_ifs at hi with hlt
  · rw [if_pos (hlt.trans_le hrv)] at hj
    have hname : e.buildName = "x" := Option.some.inj hi
    rw [hname]
    exact Option.map_eq_some_iff.mp hj
  · cases hi

def readsAtEnd : (q : Request) → Option (Answer q)
  | .listPods => some (.ok (podsAfter started) : Ans (List Pod))
  | .getLedger => some (.ok (storeAfter started).ledger : Ans LedgerMap)
  | _ => none

theorem readsAtEnd_answered (r : Reconciler) (q : Request) (a : Answer q)
    (h : readsAtEnd q = some a) : answered startedRun r started.length q a := by
  unfold readsAtEnd at h
  split at h
  · cases h
    have hpods : (podsAfter started : Multiset Pod) =
        (storeAfter started).pods.entries.map Sigma.snd := by decide +kernel
    refine ⟨rfl, ⟨.pods (podsAfter started), storeAfter started, ?_⟩, ?_⟩
    · rw [startedRun_end]
      simp only [World.reply, Choice.either, Choice.asPods, hpods, if_true]
      rfl
    · rintro ⟨e, he, -⟩
      cases he
  · cases h
    refine ⟨rfl, ⟨.ok, storeAfter started, ?_⟩, ?_⟩
    · rw [startedRun_end]
      rfl
    · rintro ⟨e, he, -⟩
      cases he
  · cases h

/-- The pump of the world, which reads through a reconciler of its own. -/
def pump : Reconciler := { ext := constantExt, cfg := oneSlotWorld.cfg, genesis := none }

/-- The ledger and the builds are read when the build has been submitted, the Pods when it has been
started: its reservation is found in the ledger that is read again. -/
theorem alarm_is_real_started : submitted.length < started.length ∧
    Checked startedRun pump submitted.length submitted.length started.length (.ok ()) ∧
      ∀ e, (.ok () : Except Err Unit) = .error e → ¬ Alarm pump e := by
  have hlt : submitted.length < started.length := by decide +kernel
  have hlist : (buildsAfter submitted : Multiset KovaBuild) =
      (startedRun.store submitted.length).builds.entries.map Sigma.snd := by
    rw [startedRun_submitted]
    decide +kernel
  have hrun : (pump.ensureNoUnreservedRunner (startedRun.store submitted.length).ledger.data
      (buildsAfter submitted)).run.answeredBy readsAtEnd = some (.ok ()) := by
    rw [startedRun_submitted]
    decide +kernel
  have hchecked : Checked startedRun pump submitted.length submitted.length started.length (.ok ()) :=
    ⟨le_rfl, _, hlist, (Observed.of_answered hrun (readsAtEnd_answered pump)).since hlt.le⟩
  refine ⟨hlt, hchecked, (alarm_is_real startedRun pump hchecked (started_noNewBuild _)
    (started_noRelease _)).resolve_right ?_⟩
  rintro ⟨i, -, -, h⟩
  exact not_orphaned_of_tidy (Semantics.runOf_always _ started_tidy i) h

/-- The ledger and the builds are read before the build is submitted, the Pods when it has been
started: the call complains of a Pod without an owner, and at no instant is there one. -/
theorem started_behind_the_list :
    ∃ (w : World) (ρ : w.Execution) (r : Reconciler) (m : Nat) (e : Err),
      (∀ n a, ρ.label n ≠ .env a) ∧ Checked ρ r 0 0 m (.error e) ∧ Alarm r e ∧
        ∀ i, ¬ Orphaned (ρ.store i) := by
  have hrun : (pump.ensureNoUnreservedRunner oneSlotWorld.initial.ledger.data []).run.answeredBy
      readsAtEnd = some (.error (.text ("runner Pod " ++ pump.qualified "kova-job-x" ++
        " has no matching KovaBuild owner"))) := by
    decide +kernel
  refine ⟨oneSlotWorld, startedRun, pump, started.length, _, fun n a => ?_,
    ⟨le_rfl, [], rfl, (Observed.of_answered hrun (readsAtEnd_answered pump)).since (Nat.zero_le _)⟩,
    .owner _, fun i => not_orphaned_of_tidy (Semantics.runOf_always _ started_tidy i)⟩
  have hown : started.all (fun l => match l with | .env _ => false | _ => true) := by
    decide +kernel
  intro hlabel
  rcases Semantics.runOf_label _ n with hmem | hstutter
  · exact absurd (List.all_eq_true.mp hown _ (hlabel ▸ hmem)) (by simp)
  · cases hlabel.symm.trans hstutter

end KovaService.Safety
