import KovaService.Runner.Server

/-!
What the mutex protects in the daemon.

The invariant ties the published status to the newest invocation: while the status is active that
invocation has not published yet, and its done channel is the installed one.  Every other invocation
has published and only has cleanup left.
-/

namespace KovaService.Runner

open Lib Api

variable {v : Invocation}

def always : Server → Server.Action → Prop := fun _ _ => True

def Server.last (s : Server) (i : Nat) : Prop := i + 1 = s.invocations.length

instance (s : Server) (i : Nat) : Decidable (s.last i) := inferInstanceAs (Decidable (_ = _))

def finalStatus : RunnerStatus → Bool
  | .completed | .failed | .cancelled => true
  | _ => false

structure Placed (s : Server) (i : Nat) (v : Invocation) : Prop where
  unpublished : v.pc.unpublished → s.last i ∧ buildActive s.build.status
  final : ∀ async status error, v.pc = .settling async status error → finalStatus status
  done : s.last i → s.buildDone = if v.pc = .finished then none else some i
  joined : v.doneClosed = v.pc.joined
  named : v.requestID ≠ "" → v.requestID = s.buildRequestID ∧ s.last i
  barrier : s.retiredRequestID ≠ "" → v.requestID = s.retiredRequestID →
    s.retireDone = some i ∨ v.pc.joined

structure Coherent (s : Server) : Prop where
  cancel : s.buildCancel = s.buildDone
  vacant : s.invocations = [] → s.buildDone = none
  idle : s.build.status = .idle → s.invocations = []
  active : buildActive s.build.status →
    ∃ i v, s.last i ∧ s.invocations[i]? = some v ∧ v.pc.unpublished
  joinable : s.retireUnjoinable = false
  placed : ∀ i v, s.invocations[i]? = some v → Placed s i v

variable {pc : Pc}

theorem Pc.unpublished_of_joined (h : pc.joined) : pc.unpublished = false := by
  cases pc <;> first | rfl | cases h

theorem Pc.ne_finished (h : pc.joined = false) : pc ≠ .finished := by
  rintro rfl
  cases h

namespace Coherent

variable {s : Server}

theorem initial : Coherent ({} : Server) := by
  constructor <;> simp [buildActive]

theorem last_of_done {i : Nat} (h : Coherent s) (hd : s.buildDone = some i) :
    s.last i ∧ ∃ v, s.invocations[i]? = some v ∧ v.pc ≠ .finished := by
  cases hl : s.invocations.getLast? with
  | none =>
    rw [h.vacant (by simpa using hl)] at hd
    cases hd
  | some v =>
    have hne : s.invocations ≠ [] := by
      intro he
      simp [he] at hl
    have hpos := List.length_pos_iff.mpr hne
    have hv : s.invocations[s.invocations.length - 1]? = some v := by
      rwa [List.getLast?_eq_getElem?] at hl
    have hlast : s.last (s.invocations.length - 1) := by
      unfold Server.last
      omega
    have heq := (h.placed _ v hv).done hlast
    rw [hd] at heq
    split at heq
    · cases heq
    · next hp =>
      cases heq
      exact ⟨hlast, v, hv, hp⟩

theorem active_done (h : Coherent s) (ha : buildActive s.build.status) :
    ∃ i v, s.buildDone = some i ∧ s.invocations[i]? = some v ∧ v.doneClosed = false := by
  obtain ⟨i, v, hl, hv, hu⟩ := h.active ha
  have hpc : v.pc ≠ .finished := by
    intro he
    rw [he] at hu
    cases hu
  refine ⟨i, v, by rw [(h.placed i v hv).done hl, if_neg hpc], hv, ?_⟩
  rw [(h.placed i v hv).joined]
  cases hp : v.pc <;> rw [hp] at hu <;> first | rfl | cases hu

end Coherent

variable {o : Outcome} {requestID : String} {error : String}

section Step

variable {s : Server} {i : Nat} {f : Invocation → Invocation} {j : Nat}

theorem getElem?_invocation (h : (s.invocation i f).invocations[j]? = some v) :
    ∃ u, s.invocations[j]? = some u ∧ v = if j = i then f u else u := by
  simp only [Server.invocation, List.getElem?_modify] at h
  obtain ⟨u, hu, rfl⟩ := Option.map_eq_some_iff.mp h
  refine ⟨u, hu, ?_⟩
  by_cases hij : i = j
  · simp [hij]
  · simp [hij, Ne.symm hij]

theorem invocation_getElem? {u : Invocation} (h : s.invocations[j]? = some u) :
    (s.invocation i f).invocations[j]? = some (if j = i then f u else u) := by
  simp only [Server.invocation, List.getElem?_modify, h]
  by_cases hij : i = j
  · simp [hij]
  · simp [hij, Ne.symm hij]

@[simp] theorem last_invocation : (s.invocation i f).last j ↔ s.last j := by
  simp [Server.last, Server.invocation]

@[simp] theorem invocation_eq_nil : (s.invocation i f).invocations = [] ↔ s.invocations = [] := by
  simp [Server.invocation, ← List.length_eq_zero_iff]

/-- A change of an invocation that matters to nobody else.  Only the newest one is waited for. -/
structure Advanced (newest : Prop) (v v' : Invocation) : Prop where
  requestID : v'.requestID = v.requestID
  unpublished : v'.pc.unpublished = v.pc.unpublished
  ended : newest → (v'.pc = .finished ↔ v.pc = .finished)
  joined : v'.doneClosed = v'.pc.joined
  later : v.pc.joined → v'.pc.joined
  final : ∀ async status error, v'.pc = .settling async status error → finalStatus status

theorem Placed.advanced {v' : Invocation} (h : Placed s i v) (ha : Advanced (s.last i) v v') :
    Placed s i v' where
  unpublished hu := h.unpublished (ha.unpublished ▸ hu)
  final := ha.final
  done hl := by simp only [h.done hl, ha.ended hl]
  joined := ha.joined
  named := by
    rw [ha.requestID]
    exact h.named
  barrier hr hid := (h.barrier hr (ha.requestID ▸ hid)).imp_right ha.later

theorem Placed.congr {s' : Server} (h : Placed s i v) (hl : s'.last i ↔ s.last i)
    (ha : buildActive s'.build.status = buildActive s.build.status)
    (hd : s'.buildDone = s.buildDone) (hr : s'.buildRequestID = s.buildRequestID)
    (hb : s'.retiredRequestID = s.retiredRequestID) (hj : s'.retireDone = s.retireDone) :
    Placed s' i v where
  unpublished := by
    rw [hl, ha]
    exact h.unpublished
  final := h.final
  done := by
    rw [hl, hd]
    exact h.done
  joined := h.joined
  named := by
    rw [hl, hr]
    exact h.named
  barrier := by
    rw [hb, hj]
    exact h.barrier

theorem Coherent.progress {d : Option Nat} (h : Coherent s)
    (hf : ∀ v, s.invocations[i]? = some v → Advanced (s.last i) v (f v)) :
    Coherent { s.invocation i f with dir := d } where
  cancel := h.cancel
  vacant hn := h.vacant (invocation_eq_nil.mp hn)
  idle hi := invocation_eq_nil.mpr (h.idle hi)
  active ha := by
    obtain ⟨k, v, hl, hv, hu⟩ := h.active ha
    refine ⟨k, _, last_invocation.mpr hl, invocation_getElem? hv, ?_⟩
    split
    · next hk => rw [(hf v (hk ▸ hv)).unpublished, hu]
    · exact hu
  joinable := h.joinable
  placed k v hv := by
    obtain ⟨u, hu, rfl⟩ := getElem?_invocation hv
    have hp : Placed s k (if k = i then f u else u) := by
      split
      · next hk =>
        subst hk
        exact (h.placed k u hu).advanced (hf u hu)
      · exact h.placed k u hu
    exact hp.congr last_invocation rfl rfl rfl rfl rfl

theorem Coherent.restate (h : Coherent s) (ha : buildActive s.build.status) :
    Coherent (s.setBuildState .cancelling error) where
  cancel := h.cancel
  vacant := h.vacant
  idle hi := by cases hi
  active _ := h.active ha
  joinable := h.joinable
  placed k v hv := (h.placed k v hv).congr Iff.rfl ha.symm rfl rfl rfl rfl

theorem Coherent.cancelled {reason : String} (h : Coherent s) (ha : buildActive s.build.status) :
    Coherent (s.cancelled reason) := by
  have hc : Coherent s.cancelContext := by
    unfold Server.cancelContext
    split
    · exact h
    · next j _ =>
      refine Coherent.progress h fun v hv => ?_
      have hp := h.placed j v hv
      exact ⟨rfl, rfl, fun _ => Iff.rfl, hp.joined, fun hj => hj, hp.final⟩
  refine hc.restate ?_
  unfold Server.cancelContext
  split <;> exact ha

theorem Coherent.stopRunning (h : Coherent s) : Coherent s.stopRunning := by
  unfold Server.stopRunning
  split
  · next hc =>
    simp only [Bool.and_eq_true, beq_iff_eq] at hc
    exact h.cancelled (by rw [hc.1]; rfl)
  · exact h

theorem Coherent.publish {status : RunnerStatus} (h : Coherent s) (hv : s.invocations[i]? = some v)
    (hu : v.pc.unpublished)
    (hs : finalStatus status)
    (hf : (f v).pc.unpublished = false ∧ (f v).pc.joined = false ∧ (f v).doneClosed = false ∧
      (f v).requestID = v.requestID) :
    Coherent ((s.setBuildState status error).invocation i f) := by
  have hne : buildActive status = false := by cases status <;> first | rfl | cases hs
  have hall : ∀ k u, s.invocations[k]? = some u → u.pc.unpublished = true → k = i := by
    intro k u hk hku
    have h1 := ((h.placed k u hk).unpublished hku).1
    have h2 := ((h.placed i v hv).unpublished hu).1
    unfold Server.last at h1 h2
    omega
  refine ⟨h.cancel, fun hn => h.vacant (invocation_eq_nil.mp hn), ?_, ?_, h.joinable, ?_⟩
  · intro hi
    have hi : status = .idle := hi
    rw [hi] at hs
    cases hs
  · intro ha
    have ha : buildActive status := ha
    rw [hne] at ha
    cases ha
  · intro k u hk
    obtain ⟨u₀, hu₀, rfl⟩ := getElem?_invocation hk
    have hp := h.placed k u₀ hu₀
    by_cases hki : k = i
    · subst hki
      cases hv.symm.trans hu₀
      rw [if_pos rfl]
      have hopen : v.pc ≠ .finished := by
        intro he
        rw [he] at hu
        cases hu
      refine ⟨fun h' => ?_, fun _ _ _ h' => ?_, fun hl => ?_, ?_, ?_, fun hr hid => ?_⟩
      · rw [hf.1] at h'
        cases h'
      · rw [h'] at hf
        cases hf.1
      · rw [if_neg (Pc.ne_finished hf.2.1)]
        have := hp.done (last_invocation.mp hl)
        rwa [if_neg hopen] at this
      · rw [hf.2.2.1, hf.2.1]
      · rw [hf.2.2.2]
        exact fun hid => ⟨(hp.named hid).1, last_invocation.mpr (hp.named hid).2⟩
      · refine (hp.barrier hr (hf.2.2.2 ▸ hid)).imp_right fun hj => ?_
        rw [Pc.unpublished_of_joined hj] at hu
        cases hu
    · rw [if_neg hki]
      have hq : u₀.pc.unpublished = false := by
        by_contra hc
        exact hki (hall k u₀ hu₀ (by simpa using hc))
      refine ⟨fun h' => ?_, hp.final, fun hl => hp.done (last_invocation.mp hl), hp.joined,
        fun hid => ⟨(hp.named hid).1, last_invocation.mpr (hp.named hid).2⟩, hp.barrier⟩
      rw [hq] at h'
      cases h'

theorem Coherent.clear (h : Coherent s) (hv : s.invocations[i]? = some v) (hc : v.pc = .closed)
    (hf : (f v).pc = .finished ∧ (f v).doneClosed ∧
      (f v).requestID = v.requestID) :
    Coherent ((s.clearBuildExecution i).invocation i f) := by
  have hadvanced : ¬ s.last i → Advanced (s.last i) v (f v) := fun hl =>
    ⟨hf.2.2, by rw [hf.1, hc]; rfl, fun h' => absurd h' hl, by rw [hf.2.1, hf.1]; rfl,
      fun _ => by rw [hf.1]; rfl, by simp [hf.1]⟩
  have hopen : v.pc ≠ .finished := by simp [hc]
  unfold Server.clearBuildExecution
  split
  · next hd =>
    have hl := (h.last_of_done hd).1
    refine ⟨rfl, fun _ => rfl, fun hi => invocation_eq_nil.mpr (h.idle hi), fun ha => ?_,
      h.joinable, fun k u hk => ?_⟩
    · obtain ⟨k, u, hlk, hu, hpub⟩ := h.active ha
      cases Nat.succ.inj (hlk.trans hl.symm)
      cases hv.symm.trans hu
      rw [hc] at hpub
      cases hpub
    · obtain ⟨u₀, hu₀, rfl⟩ := getElem?_invocation hk
      have hp := h.placed k u₀ hu₀
      by_cases hki : k = i
      · subst hki
        cases hv.symm.trans hu₀
        rw [if_pos rfl]
        refine ⟨fun h' => ?_, by simp [hf.1], fun _ => by rw [if_pos hf.1]; rfl,
          by rw [hf.2.1, hf.1]; rfl, ?_, fun _ _ => .inr (by rw [hf.1]; rfl)⟩
        · rw [hf.1] at h'
          cases h'
        · rw [hf.2.2]
          exact fun hid => ⟨(hp.named hid).1, last_invocation.mpr hl⟩
      · rw [if_neg hki]
        have hno : ¬ s.last k := fun h' => hki (Nat.succ.inj (h'.trans hl.symm))
        exact ⟨fun h' => absurd (hp.unpublished h').1 hno, hp.final,
          fun h' => absurd (last_invocation.mp h') hno, hp.joined,
          fun hid => absurd (hp.named hid).2 hno, hp.barrier⟩
  · next hd =>
    -- an older invocation ends: nothing waits for it
    have hl : ¬ s.last i := fun hl => hd (((h.placed i v hv).done hl).trans (if_neg hopen))
    exact h.progress (d := s.dir) fun u hu => by cases hv.symm.trans hu; exact hadvanced hl

/-- A request is accepted only when every invocation has published. -/
theorem Coherent.admitBuild (h : Coherent s) (hv : s.vacant) :
    Coherent (s.admitBuild requestID) := by
  simp only [Server.vacant, Bool.and_eq_true, beq_iff_eq, Bool.not_eq_true'] at hv
  obtain ⟨⟨hret, hid⟩, hact⟩ := hv
  have hnew : (s.admitBuild requestID).last s.invocations.length := by
    simp [Server.last, Server.admitBuild]
  have hold : ∀ k, k < s.invocations.length → ¬ (s.admitBuild requestID).last k := by
    intro k hk
    simp only [Server.last, Server.admitBuild, List.length_append, List.length_singleton]
    omega
  refine ⟨rfl, fun hn => ?_, fun hi => (by cases hi), fun _ => ?_, h.joinable, fun k u hk => ?_⟩
  · simp [Server.admitBuild] at hn
  · exact ⟨_, { requestID := requestID }, hnew, by simp [Server.admitBuild], rfl⟩
  · rcases Nat.lt_or_ge k s.invocations.length with hlt | hge
    · have hu : s.invocations[k]? = some u := by
        simpa [Server.admitBuild, List.getElem?_append_left hlt] using hk
      have hp := h.placed k u hu
      refine ⟨fun hpub => ?_, hp.final, fun hl => absurd hl (hold k hlt), hp.joined, fun hne => ?_,
        fun hr => absurd hret hr⟩
      · rw [(hp.unpublished hpub).2] at hact
        cases hact
      · -- an earlier invocation with an id would have kept the runner
        rw [(hp.named hne).1] at hne
        exact absurd hid hne
    · have hku : k = s.invocations.length ∧ u = { requestID := requestID } := by
        simp only [Server.admitBuild, List.getElem?_append_right hge] at hk
        have : k - s.invocations.length = 0 := by
          by_contra hne
          rw [List.getElem?_eq_none (by simp; omega)] at hk
          cases hk
        rw [this] at hk
        cases hk
        exact ⟨by omega, rfl⟩
      obtain ⟨rfl, rfl⟩ := hku
      exact ⟨fun _ => ⟨hnew, rfl⟩, fun _ _ _ h' => (by cases h'), fun _ => rfl, rfl,
        fun _ => ⟨rfl, hnew⟩, fun hr => absurd hret hr⟩

theorem Coherent.installBarrier (h : Coherent s) : Coherent (s.installBarrier requestID) := by
  refine ⟨h.cancel, h.vacant, h.idle, h.active, ?_, fun k u hk => ?_⟩
  · show (buildActive s.build.status && s.buildDone.isNone) = false
    cases ha : buildActive s.build.status with
    | false => rfl
    | true =>
      obtain ⟨i, v, hd, -⟩ := h.active_done ha
      simp [hd]
  · have hp := h.placed k u hk
    refine ⟨hp.unpublished, hp.final, hp.done, hp.joined, hp.named, fun hr hid => ?_⟩
    have hid : u.requestID = requestID := hid
    have hr : requestID ≠ "" := hr
    -- the invocation of this id is the newest, so its channel is installed or it is over
    have hl := (hp.named (hid ▸ hr)).2
    have hd := hp.done hl
    by_cases ho : u.pc = .finished
    · exact .inr (by rw [ho]; rfl)
    · rw [if_neg ho] at hd
      exact .inl hd

theorem Pc.next_local (c : Bool) (o : Outcome)
    (hs : ∀ async status error, pc ≠ .settling async status error) (hj : pc.joined = false) :
    (pc.next c o).unpublished = pc.unpublished ∧ (pc.next c o).joined = pc.closes ∧
      pc.next c o ≠ .finished ∧
      ∀ async status error, pc.next c o = .settling async status error →
        finalStatus status := by
  cases pc with
  | settling async status error => exact absurd rfl (hs async status error)
  | closed | finished => cases hj
  | published async status => cases async <;> simp [Pc.next, Pc.unpublished, Pc.joined, Pc.closes]
  | _ =>
    cases o <;> cases c <;>
      simp +contextual [Pc.next, Pc.unpublished, Pc.joined, Pc.closes, finalStatus]

theorem Server.perform_local (hs : ∀ async status error, pc ≠ .settling async status error)
    (hj : pc.joined = false) :
    ∃ d, s.perform i pc o = { s with dir := d } := by
  cases pc with
  | settling async status error => exact absurd rfl (hs async status error)
  | closed | finished => cases hj
  | published async status => cases async <;> cases o <;> exact ⟨_, rfl⟩
  | _ => cases o <;> exact ⟨_, rfl⟩

theorem Coherent.proceed (h : Coherent s) (hv : s.invocations[i]? = some v)
    (hs : ∀ async status error, v.pc ≠ .settling async status error) (hj : v.pc.joined = false) :
    Coherent ((s.perform i v.pc o).invocation i fun v => v.next o) := by
  obtain ⟨d, hd⟩ := Server.perform_local (s := s) (i := i) (o := o) hs hj
  rw [hd]
  refine Coherent.progress h fun u hu => ?_
  cases hv.symm.trans hu
  obtain ⟨hu', hj', hne, hfin⟩ := Pc.next_local v.ctxCancelled o hs hj
  refine ⟨rfl, hu', ?_, ?_, fun h' => ?_, hfin⟩
  · exact fun _ => iff_of_false hne (Pc.ne_finished hj)
  · simp [Invocation.next, hj', (h.placed i v hv).joined, hj]
  · rw [hj] at h'
    cases h'

theorem Coherent.advance {s' : Server} (h : Coherent s) (he : s.advance i o = some s') :
    Coherent s' := by
  unfold Server.advance at he
  split at he
  · cases he
  next v hv =>
  have hp := h.placed i v hv
  split at he
  · cases he
  next ho =>
  cases he
  cases hpc : v.pc with
  | settling async status error =>
    refine h.publish hv (by rw [hpc]; rfl) (hp.final async status error hpc) ?_
    simp [Invocation.next, hpc, Pc.next, Pc.unpublished, Pc.joined, Pc.closes, hp.joined]
  | closed =>
    refine h.clear hv hpc ?_
    simp [Invocation.next, hpc, Pc.next, Pc.joined, hp.joined]
  | finished => exact absurd hpc ho
  | _ =>
    rw [← hpc]
    exact h.proceed hv (by simp [hpc]) (by rw [hpc]; rfl)

end Step

variable {allowed : Server → Server.Action → Prop} {r : String} {ids : List String}

section Runs

variable {s s' : Server} {a : Server.Action} {resp : Response} {i : Nat}

theorem handleBuildPost_eq (ids : List String) :
    (∃ r, s.handleBuildPost ids = (s, r) ∧ r ≠ .accepted) ∨
      s.vacant ∧ s.handleBuildPost ids = (s.admitBuild (ids.headD ""), .accepted) := by
  unfold Server.handleBuildPost
  dsimp only
  split_ifs with _ _ hr _ hb ha
  iterate 6 exact .inl ⟨_, rfl, by simp [Server.refuse]⟩
  refine .inr ⟨?_, rfl⟩
  simp only [bne_iff_ne, ne_eq, not_not, Bool.not_eq_true] at hr hb ha
  simp [Server.vacant, hr, hb, ha]

/-- What a step can do to the server. -/
inductive Effect (s : Server) : Server.Action → Server → Prop where
  | same {a : Server.Action} : Effect s a s
  | accept {ids : List String} {requestID : String} (hv : s.vacant = true) :
      Effect s (.build ids) (s.admitBuild requestID)
  | cancel {reason : String} (ha : buildActive s.build.status = true) :
      Effect s .cancel (s.cancelled reason)
  | install {ids : List String} {requestID : String} (hr : s.retiredRequestID = "") :
      Effect s (.retire ids) (s.installBarrier requestID).stopRunning
  | stop {ids : List String} : Effect s (.retire ids) s.stopRunning
  | advance {i : Nat} {o : Outcome} {s' : Server} (he : s.advance i o = some s') :
      Effect s (.advance i o) s'

theorem step_effect (he : s.step a = some (s', resp)) : Effect s a s' := by
  cases a with
  | build ids =>
    rcases handleBuildPost_eq (s := s) ids with ⟨r, hr, -⟩ | ⟨hv, hr⟩ <;>
      cases he.symm.trans (congrArg some hr)
    · exact .same
    · exact .accept hv
  | status => cases he; exact .same
  | retireStatus ids => cases he; exact .same
  | cancel =>
    have he : s.handleBuildCancel = (s', resp) := Option.some.inj he
    unfold Server.handleBuildCancel at he
    split at he
    · next hc =>
      cases he
      exact .cancel (Bool.and_eq_true_iff.mp hc).1
    · cases he
      exact .same
  | retire ids =>
    have he : s.handleBuildRetirePost ids = (s', resp) := Option.some.inj he
    unfold Server.handleBuildRetirePost at he
    split at he
    · cases he; exact .same
    · split_ifs at he with h1 h2 h3 <;> cases he
      · exact .same
      · exact .same
      · exact .install (by simpa using h3)
      · exact .stop
  | advance i o =>
    obtain ⟨s₁, hs, he⟩ := Option.map_eq_some_iff.mp he
    cases he
    exact .advance hs

theorem Coherent.step (h : Coherent s) (he : s.step a = some (s', resp)) : Coherent s' := by
  cases step_effect he with
  | same => exact h
  | accept hv => exact h.admitBuild hv
  | cancel ha => exact h.cancelled ha
  | install => exact h.installBarrier.stopRunning
  | stop => exact h.stopRunning
  | advance hs => exact h.advance hs

theorem Coherent.reachable (h : Server.process.Reachable allowed s) : Coherent s :=
  h.invariant Coherent.initial fun _ _ _ _ hc _ he => hc.step he

def Server.barrier (s : Server) : String × Option Nat × Bool :=
  (s.retiredRequestID, s.retireDone, s.retireUnjoinable)

/-- The barrier stays, and closed channels stay closed. -/
structure Later (s s' : Server) : Prop where
  barrier : s'.barrier = s.barrier
  closed : ∀ i, s.isClosed i → s'.isClosed i

theorem Later.refl (s : Server) : Later s s := ⟨rfl, fun _ h => h⟩

theorem Later.trans {s₁ s₂ s₃ : Server} (h : Later s₁ s₂) (h' : Later s₂ s₃) : Later s₁ s₃ :=
  ⟨h'.barrier.trans h.barrier, fun i hi => h'.closed i (h.closed i hi)⟩

theorem Later.invocation {f : Invocation → Invocation} (s : Server)
    (hf : ∀ v, v.doneClosed → (f v).doneClosed) : Later s (s.invocation i f) := by
  refine ⟨rfl, fun j hj => ?_⟩
  obtain ⟨v, hv, hc⟩ := (Option.any_eq_true _ _).mp hj
  refine (Option.any_eq_true _ _).mpr ⟨_, invocation_getElem? hv, ?_⟩
  split
  · exact hf v hc
  · exact hc

theorem Later.cancelled (s : Server) (reason : String) : Later s (s.cancelled reason) := by
  have hc : Later s s.cancelContext := by
    unfold Server.cancelContext
    split
    · exact .refl s
    · exact .invocation s fun _ h => h
  exact ⟨hc.barrier, hc.closed⟩

theorem Later.stopRunning (s : Server) : Later s s.stopRunning := by
  unfold Server.stopRunning
  split
  · exact .cancelled s _
  · exact .refl s

theorem Later.perform (s : Server) (i : Nat) (pc : Pc) (o : Outcome) :
    Later s (s.perform i pc o) := by
  unfold Server.perform Server.clearBuildExecution
  split
  case h_5 => split <;> exact ⟨rfl, fun _ h => h⟩
  all_goals exact ⟨rfl, fun _ h => h⟩

theorem Later.step (hr : s.retiredRequestID ≠ "") (he : s.step a = some (s', resp)) :
    Later s s' := by
  cases step_effect he with
  | same => exact .refl s
  | accept hv => simp [Server.vacant, hr] at hv
  | cancel => exact .cancelled s _
  | install h => exact absurd h hr
  | stop => exact .stopRunning s
  | @advance i o _ hs =>
    unfold Server.advance at hs
    split at hs
    · cases hs
    · split at hs
      · cases hs
      · cases hs
        refine (Later.perform s i _ o).trans (.invocation _ fun v hv => ?_)
        simp [Invocation.next, hv]

theorem Later.steps (hr : s.retiredRequestID ≠ "") (h : Server.process.Steps allowed s s') :
    Later s s' := by
  refine h.keep (Later.refl s) fun s₁ a s₂ r hl _ he => hl.trans (Later.step ?_ he)
  have : s₁.retiredRequestID = s.retiredRequestID := congrArg Prod.fst hl.barrier
  rwa [this]

/-- A retire request, or the question for its state, for this id. -/
def asksRetire (r : String) (a : Server.Action) : Prop := a = .retire [r] ∨ a = .retireStatus [r]

theorem firstRetireRequestID_eq (h : Server.firstRetireRequestID ids = some r) :
    ids = [r] ∧ r ≠ "" ∧ r.utf8ByteSize ≤ 128 := by
  unfold Server.firstRetireRequestID at h
  split at h
  · split at h
    · cases h
    · next hc =>
      cases h
      simp only [Bool.or_eq_true, beq_iff_eq, decide_eq_true_eq, not_or, not_lt] at hc
      exact ⟨rfl, hc⟩
  · cases h

theorem retirePost_answer {c : Nat} {st : RetireState}
    (he : s.step (.retire ids) = some (s', .retire c st)) :
    ∃ r, ids = [r] ∧ (r ≠ "" ∧ r.utf8ByteSize ≤ 128) ∧ s'.retiredRequestID = r ∧
      st = s'.retireStateLocked := by
  have he : s.handleBuildRetirePost ids = (s', .retire c st) := Option.some.inj he
  unfold Server.handleBuildRetirePost at he
  split at he
  · cases he
  next r hr =>
  obtain ⟨hids, hne⟩ := firstRetireRequestID_eq hr
  refine ⟨r, hids, hne, ?_⟩
  have hkeep : ∀ s : Server, s.stopRunning.retiredRequestID = s.retiredRequestID :=
    fun s => congrArg Prod.fst (Later.stopRunning s).barrier
  split_ifs at he with h1 h2 h3
  · cases he
  · cases he
  · cases he
    exact ⟨hkeep _, rfl⟩
  · cases he
    refine ⟨(hkeep _).trans ?_, rfl⟩
    simp_all

theorem retire_answer {c : Nat} {st : RetireState} (ha : asksRetire r a)
    (he : s.step a = some (s', .retire c st)) :
    (r ≠ "" ∧ r.utf8ByteSize ≤ 128) ∧ s'.retiredRequestID = r ∧ st = s'.retireStateLocked := by
  rcases ha with rfl | rfl
  · obtain ⟨r', hids, hne, hr, hst⟩ := retirePost_answer he
    cases hids
    exact ⟨hne, hr, hst⟩
  · have he : some (s, s.handleBuildRetireGet [r]) = some (s', .retire c st) := he
    unfold Server.handleBuildRetireGet at he
    split at he
    · cases he
    next r' hr =>
    obtain ⟨hids, hne⟩ := firstRetireRequestID_eq hr
    cases hids
    split_ifs at he with h1 h2
    · cases he
    · cases he
    · cases he
      exact ⟨hne, by simpa using h2, rfl⟩

/-- Once the barrier of `r` is installed, every question about `r` is answered with its state. -/
theorem retire_answered (hr : s.retiredRequestID = r) (hr' : r ≠ "" ∧ r.utf8ByteSize ≤ 128)
    (ha : asksRetire r a) (he : s.step a = some (s', resp)) :
    ∃ c, resp = .retire c s'.retireStateLocked := by
  obtain ⟨hne, hlen⟩ := hr'
  have hfirst : Server.firstRetireRequestID [r] = some r := by
    simp [Server.firstRetireRequestID, hne, hlen]
  rcases ha with rfl | rfl
  · have he : some (s.handleBuildRetirePost [r]) = some (s', resp) := he
    simp only [Server.handleBuildRetirePost, hfirst, hr, bne_self_eq_false, Bool.and_false,
      Bool.false_eq_true, if_false, beq_iff_eq, hne, Bool.and_eq_true, false_and] at he
    cases he
    exact ⟨_, rfl⟩
  · have he : some (s, s.handleBuildRetireGet [r]) = some (s', resp) := he
    simp only [Server.handleBuildRetireGet, hfirst, hr, beq_iff_eq, hne, if_false,
      bne_self_eq_false, Bool.false_eq_true] at he
    cases he
    exact ⟨_, rfl⟩

theorem phase_locallyJoined :
    s.retireStateLocked.phase = .locallyJoined ↔
      s.retireUnjoinable = false ∧ ∀ i, s.retireDone = some i → s.isClosed i := by
  unfold Server.retireStateLocked
  cases hu : s.retireUnjoinable with
  | true => simp
  | false =>
    cases hd : s.retireDone with
    | none => simp
    | some i => cases hc : s.isClosed i <;> simp [hc]

theorem Later.phase (h : Later s s') (hp : s.retireStateLocked.phase = .locallyJoined) :
    s'.retireStateLocked.phase = .locallyJoined := by
  have hb := h.barrier
  simp only [Server.barrier, Prod.mk.injEq] at hb
  rw [phase_locallyJoined] at hp ⊢
  rw [hb.2.1, hb.2.2]
  exact ⟨hp.1, fun i hi => h.closed i (hp.2 i hi)⟩

theorem Coherent.joined_invocation (h : Coherent s) (hr : s.retiredRequestID ≠ "")
    (hp : s.retireStateLocked.phase = .locallyJoined)
    (hv : s.invocations[i]? = some v) (hid : v.requestID = s.retiredRequestID) :
    v.pc.joined := by
  rcases (h.placed i v hv).barrier hr hid with hd | hj
  · obtain ⟨u, hu, hc⟩ := (Option.any_eq_true _ _).mp ((phase_locallyJoined.mp hp).2 i hd)
    cases hv.symm.trans hu
    rwa [(h.placed i v hv).joined] at hc
  · exact hj

end Runs

/-- In every run of one daemon process: an accepted retire request stops all later build requests; a
locally joined answer is given only after the invocation of that id has extracted, run, published and
cleaned up, and is repeated by every later answer; an id is accepted once; and no barrier is
unjoinable, because an active status comes with an open done channel. -/
theorem retire_barrier {s : Server} (hs : Server.process.Reachable always s) :
    (∀ ids s₁ c st s₂, s.step (.retire ids) = some (s₁, .retire c st) →
      Server.process.Steps always s₁ s₂ →
      ∀ ids' s₃ resp, s₂.step (.build ids') = some (s₃, resp) → resp ≠ .accepted ∧ s₃ = s₂) ∧
    (∀ r a s₁ c st, asksRetire r a → s.step a = some (s₁, .retire c st) →
      st.phase = .locallyJoined →
      (∀ (i : Nat) (v : Invocation), s₁.invocations[i]? = some v → v.requestID = r → v.pc.joined) ∧
      ∀ s₂ a' s₃ resp, Server.process.Steps always s₁ s₂ → asksRetire r a' →
        s₂.step a' = some (s₃, resp) →
        ∃ c' st', resp = .retire c' st' ∧ st'.requestID = r ∧ st'.phase = .locallyJoined) ∧
    (∀ (i j : Nat) (v u : Invocation), s.invocations[i]? = some v → s.invocations[j]? = some u →
      v.requestID ≠ "" → v.requestID = u.requestID → i = j) ∧
    s.retireUnjoinable = false ∧
    (buildActive s.build.status → ∃ i v, s.buildDone = some i ∧
      s.invocations[i]? = some v ∧ v.doneClosed = false) := by
  have hc := Coherent.reachable hs
  refine ⟨?_, ?_, ?_, hc.joinable, hc.active_done⟩
  · intro ids s₁ c st s₂ he hsteps ids' s₃ resp hb
    obtain ⟨r, -, ⟨hne, -⟩, hr, -⟩ := retirePost_answer he
    have hl := Later.steps (hr ▸ hne) hsteps
    have hr₂ : s₂.retiredRequestID = r := (congrArg Prod.fst hl.barrier).trans hr
    rcases handleBuildPost_eq (s := s₂) ids' with ⟨x, hx, hxa⟩ | ⟨hv, -⟩
    · cases hb.symm.trans (congrArg some hx)
      exact ⟨hxa, rfl⟩
    · simp [Server.vacant, hr₂, hne] at hv
  · intro r a s₁ c st ha he hp
    obtain ⟨hr', hr, rfl⟩ := retire_answer ha he
    have hne := hr'.1
    have hc₁ : Coherent s₁ := hc.step he
    refine ⟨fun i v hv hid => ?_, fun s₂ a' s₃ resp hsteps ha' he' => ?_⟩
    · exact hc₁.joined_invocation (hr ▸ hne) hp hv (hid.trans hr.symm)
    · have hl := Later.steps (hr ▸ hne) hsteps
      have hr₂ : s₂.retiredRequestID = r := (congrArg Prod.fst hl.barrier).trans hr
      have hl₃ := Later.step (hr₂ ▸ hne) he'
      obtain ⟨c', rfl⟩ := retire_answered hr₂ hr' ha' he'
      refine ⟨c', _, rfl, ?_, (hl.trans hl₃).phase hp⟩
      exact (congrArg Prod.fst hl₃.barrier).trans hr₂
  · intro i j v u hv hu hne he
    have h1 := ((hc.placed i v hv).named hne).2
    have h2 := ((hc.placed j u hu).named (he ▸ hne)).2
    unfold Server.last at h1 h2
    omega

theorem retire_barrier_uploading : ∃ s,
    Server.process.after (fun _ _ => true) {} [.build ["a"], .retire ["a"]] = some s ∧
    buildActive s.build.status ∧ s.retireUnjoinable = false ∧
    ∃ i v, s.buildDone = some i ∧ s.invocations[i]? = some v ∧ v.doneClosed = false := by
  have hrun : (Server.process.after (fun _ _ => true) {} [.build ["a"], .retire ["a"]]).any
      (fun s => buildActive s.build.status) := by decide +kernel
  obtain ⟨s, hs, ha⟩ := (Option.any_eq_true _ _).mp hrun
  obtain ⟨-, -, -, hj, hd⟩ := retire_barrier (Automaton.steps_of_after hs fun _ _ _ => trivial)
  exact ⟨s, hs, ha, hj, hd ha⟩

end KovaService.Runner
