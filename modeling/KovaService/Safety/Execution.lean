import KovaService.Safety.Attempts

/-!
What the runners execute.

A daemon belongs to the first build request it accepts, and it starts that build once.  So what was
started in a Pod can be read off its daemon, however often a submission is repeated.  In a Genesis
installation a build has one Pod, and its request is accepted by no other.
-/

namespace KovaService.Safety

open Lib Api Ledger Protocol Proof Runner KovaService.System

variable {w : World} {ρ : w.Execution} {n : Nat} {uid : UID} {d d' : Daemon}

/-- A step of a daemon that accepts no build and starts none. -/
structure Onward (d d' : Daemon) : Prop where
  request : d'.requestID = d.requestID
  stage : d'.stage = d.stage ∨ d.stage ≠ .vacant ∧ d'.stage = .over

theorem cancelActiveBuild_onward (reason : String) : Onward d (d.cancelActiveBuild reason) := by
  unfold Daemon.cancelActiveBuild
  split <;> exact ⟨rfl, .inl rfl⟩

theorem handleBuildRetirePost_onward (id : String) : Onward d (d.handleBuildRetirePost id) := by
  unfold Daemon.handleBuildRetirePost
  dsimp only
  split_ifs <;> exact ⟨rfl, .inl rfl⟩

theorem handleBuildPost_cases (d : Daemon) (id : String) :
    (d.handleBuildPost id).1 = d ∨ d.requestID = "" ∧ (d.handleBuildPost id).1.requestID = id := by
  unfold Daemon.handleBuildPost
  split_ifs <;> simp_all

theorem advance_onward {e : Daemon.Event} (h : d.advance e = some d') (he : e ≠ .run) :
    Onward d d' := by
  cases e with
  | run => exact absurd rfl he
  | abort | finish =>
    simp only [Daemon.advance, Option.ite_none_right_eq_some, Bool.and_eq_true, beq_iff_eq] at h
    obtain ⟨⟨hs, -⟩, h⟩ := h
    cases h
    exact ⟨rfl, .inr ⟨by simp [hs], rfl⟩⟩

def Started (d : Daemon) : Prop := d.stage = .building ∨ d.stage = .over

theorem Onward.started (h : Onward d d') (hd : Started d) : Started d' := by
  unfold Started at *
  rcases h.stage with hs | ⟨-, hs⟩ <;> simp [hs, hd]

/-- The build whose request was accepted is a stored one, and in Genesis mode it owns the Pod. -/
def Belongs (ρ : w.Execution) (n : Nat) (uid : UID) (id : String) : Prop :=
  (∃ b ∈ (ρ.store n).versions, b.uid = id) ∧ (w.genesis.isSome →
    ∃ m p₀ p, m < n ∧ PodBirth ρ m p₀ p ∧ p.uid = uid ∧ controlledBy p id)

structure Employed (ρ : w.Execution) (n : Nat) (uid : UID) (d : Daemon) : Prop where
  known : uid ∈ (ρ.store n).uids
  vacant : d.requestID = "" → d.stage = .vacant
  belongs : d.requestID ≠ "" → Belongs ρ n uid d.requestID

theorem Employed.succ (h : Employed ρ n uid d) : Employed ρ (n + 1) uid d where
  known := uids_mono ρ (Nat.le_succ n) h.known
  vacant := h.vacant
  belongs := by
    intro hne
    obtain ⟨⟨b, hb, hu⟩, hg⟩ := h.belongs hne
    refine ⟨⟨b, versions_succ ρ n hb, hu⟩, fun hgen => ?_⟩
    obtain ⟨m, p₀, p, hm, hrest⟩ := hg hgen
    exact ⟨m, p₀, p, Nat.lt_succ_of_lt hm, hrest⟩

theorem Employed.onward (h : Employed ρ n uid d) (ho : Onward d d') : Employed ρ n uid d' where
  known := h.known
  vacant := by
    intro he
    have hs := h.vacant (ho.request ▸ he)
    exact (ho.stage.resolve_right fun hn => hn.1 hs).trans hs
  belongs := by
    rw [ho.request]
    exact h.belongs

/-- The started builds are those of daemons that have gone beyond the acceptance. -/
structure Staffed (ρ : w.Execution) (n : Nat) : Prop where
  employed : ∀ uid d, (ρ.store n).daemons.lookup uid = some d → Employed ρ n uid d
  started : ∀ r ∈ (ρ.store n).runs, ∃ d, (ρ.store n).daemons.lookup r.1 = some d ∧
    d.requestID = r.2 ∧ r.2 ≠ "" ∧ Started d
  nodup : ((ρ.store n).runs.map Prod.fst).Nodup

namespace Staffed

theorem keep (h : Staffed ρ n) (hd : (ρ.store (n + 1)).daemons = (ρ.store n).daemons)
    (hr : (ρ.store (n + 1)).runs = (ρ.store n).runs) : Staffed ρ (n + 1) := by
  refine ⟨?_, ?_, hr ▸ h.nodup⟩
  · rw [hd]
    exact fun uid d hl => (h.employed uid d hl).succ
  · rw [hd, hr]
    exact h.started

theorem set (h : Staffed ρ n) (hd : (ρ.store (n + 1)).daemons = (ρ.store n).daemons.insert uid d')
    (hr : (ρ.store (n + 1)).runs = (ρ.store n).runs) (hm : Employed ρ (n + 1) uid d')
    (hold : ∀ d, (ρ.store n).daemons.lookup uid = some d → Started d → Onward d d') :
    Staffed ρ (n + 1) := by
  refine ⟨fun u d hl => ?_, fun r hmem => ?_, hr ▸ h.nodup⟩
  · rcases lookup_insert_cases (hd ▸ hl) with ⟨rfl, rfl⟩ | ⟨-, hl⟩
    · exact hm
    · exact (h.employed u d hl).succ
  · obtain ⟨d, hl, hid, hne, hs⟩ := h.started r (hr ▸ hmem)
    rw [hd]
    by_cases hu : r.1 = uid
    · have ho := hold d (hu ▸ hl) hs
      rw [hu, Finmap.lookup_insert]
      exact ⟨d', rfl, ho.request.trans hid, hne, ho.started hs⟩
    · exact ⟨d, (Finmap.lookup_insert_of_ne _ hu).trans hl, hid, hne, hs⟩

theorem onward (h : Staffed ρ n) (hl : (ρ.store n).daemons.lookup uid = some d) (ho : Onward d d')
    (hd : (ρ.store (n + 1)).daemons = (ρ.store n).daemons.insert uid d')
    (hr : (ρ.store (n + 1)).runs = (ρ.store n).runs) : Staffed ρ (n + 1) :=
  h.set hd hr ((h.employed uid d hl).succ.onward ho) fun _ hl₀ _ =>
    Option.some.inj (hl.symm.trans hl₀) ▸ ho

theorem submit (h : Staffed ρ n) (hl : (ρ.store n).daemons.lookup uid = some d) {id : String}
    (hid : id ≠ "") (hb : Belongs ρ n uid id)
    (hd : (ρ.store (n + 1)).daemons = (ρ.store n).daemons.insert uid (d.handleBuildPost id).1)
    (hr : (ρ.store (n + 1)).runs = (ρ.store n).runs) : Staffed ρ (n + 1) := by
  rcases handleBuildPost_cases d id with hsame | ⟨hnone, hreq⟩
  · rw [hsame] at hd
    exact h.onward hl ⟨rfl, .inl rfl⟩ hd hr
  · have he := h.employed uid d hl
    refine h.set hd hr (.succ ⟨he.known, fun h => absurd (hreq ▸ h) hid, fun _ => by rwa [hreq]⟩) ?_
    intro d₀ hl₀ hs₀
    cases hl.symm.trans hl₀
    simp [Started, he.vacant hnone] at hs₀

theorem run (h : Staffed ρ n) (hl : (ρ.store n).daemons.lookup uid = some d)
    (ha : d.stage = .accepted)
    (hd : (ρ.store (n + 1)).daemons =
      (ρ.store n).daemons.insert uid { d with stage := .building })
    (hr : (ρ.store (n + 1)).runs = (ρ.store n).runs ++ [(uid, d.requestID)]) :
    Staffed ρ (n + 1) := by
  have he := h.employed uid d hl
  have hid : d.requestID ≠ "" := by
    intro hid
    have := he.vacant hid
    simp [ha] at this
  have hnew : ∀ r ∈ (ρ.store n).runs, r.1 ≠ uid := by
    rintro r hmem rfl
    obtain ⟨d₀, hl₀, -, -, hs⟩ := h.started r hmem
    rw [hl] at hl₀
    cases hl₀
    simp [Started, ha] at hs
  refine ⟨fun u d₀ hl₀ => ?_, fun r hmem => ?_, ?_⟩
  · rcases lookup_insert_cases (hd ▸ hl₀) with ⟨rfl, rfl⟩ | ⟨-, hl₀⟩
    · exact ⟨he.succ.known, fun h => absurd h hid, he.succ.belongs⟩
    · exact (h.employed u d₀ hl₀).succ
  · rw [hr, List.mem_append, List.mem_singleton] at hmem
    rw [hd]
    rcases hmem with hmem | rfl
    · obtain ⟨d₀, hl₀, hrest⟩ := h.started r hmem
      exact ⟨d₀, (Finmap.lookup_insert_of_ne _ (hnew r hmem)).trans hl₀, hrest⟩
    · exact ⟨_, Finmap.lookup_insert _, rfl, hid, .inl rfl⟩
  · rw [hr, List.map_append]
    refine List.nodup_append.mpr ⟨h.nodup, List.nodup_singleton _, ?_⟩
    simpa using fun a b hab => hnew (a, b) hab

end Staffed

variable {expected : UID}

theorem target_eq {s : Cluster} {pod : String} (h : s.target pod expected = some (uid, d)) :
    ∃ p, s.pods.lookup pod = some p ∧
      validateExpectedPodUID p expected ∧ p.uid = uid ∧ s.daemons.lookup uid = some d := by
  unfold Cluster.target at h
  cases hp : s.pods.lookup pod with
  | none => simp [hp] at h
  | some p =>
    simp only [hp, Option.ite_none_right_eq_some, Option.map_eq_some_iff] at h
    obtain ⟨hv, d₀, hd, he⟩ := h
    cases he
    exact ⟨p, rfl, hv, rfl, hd⟩

/-- In Genesis mode a command reaches the Pod it was meant for, or none. -/
theorem expected_eq (hg : w.genesis.isSome) {name : String} {p : Pod}
    (hp : (ρ.store n).pods.lookup name = some p)
    (hv : validateExpectedPodUID p expected) : p.uid = expected := by
  obtain ⟨-, m, p₀, -, hb⟩ := pod_born ρ hp
  obtain ⟨_, _, -, -, _, hc⟩ := acts_demanded hb.acts rfl
  have hfence : runnerPodUID p = some p.uid := by
    rw [← hc.fenced hg p.uid]
    simp only [runnerPodUID, hb.same.spec]
  simp only [validateExpectedPodUID, hfence, Bool.and_eq_true, beq_iff_eq] at hv
  exact hv.2.symm

theorem submission_belongs {pod : String} {id : String}
    (hq : ρ.acts n (.execSubmit pod expected id))
    (ht : (ρ.store n).target pod expected = some (uid, d)) : id ≠ "" ∧ Belongs ρ n uid id := by
  obtain ⟨m, t, hm, -, b, hb⟩ := acts_demanded hq rfl
  have hv := versions_mono ρ hm.le hb.stored
  rw [hb.request]
  refine ⟨((versions_ok ρ n).uid b hv).1, ⟨b, hv, rfl⟩, fun hg => ?_⟩
  obtain ⟨-, k, p, hk, hp, hu, hc⟩ := hb.witnessed hg
  obtain ⟨p', hp', hvalid, hu', -⟩ := target_eq ht
  obtain ⟨-, m', p₀, hm', hbirth⟩ := pod_born ρ hp
  refine ⟨m', p₀, p, by omega, hbirth, ?_, hc⟩
  rw [hu, ← hu', expected_eq hg hp' hvalid]

theorem staffed_acts {q : Request} (h : Staffed ρ n) (hq : ρ.acts n q)
    (ha : Acts (ρ.store n) q (ρ.store (n + 1))) : Staffed ρ (n + 1) := by
  have hframe := ha.frame
  generalize hs : ρ.store (n + 1) = s' at ha
  cases ha with
  | nothing => exact h.keep (by rw [hs]) (by rw [hs])
  | @createPod p uid hu hf hn =>
    simp only [Cluster.createPod, hn, Option.isSome_none, Bool.false_eq_true, if_false] at hs
    refine h.set (by rw [hs]) (by rw [hs]) ⟨?_, fun _ => rfl, fun hne => absurd rfl hne⟩ ?_
    · rw [hs]
      exact Finset.mem_insert_self uid _
    · exact fun d hl => absurd (h.employed uid d hl).known hf
  | @deletePod name uid now current hl hu =>
    simp only [Cluster.deletePod, hl, ne_eq, hu, not_true_eq_false, if_false] at hs
    cases now <;> exact h.keep (by rw [hs]) (by rw [hs])
  | @submit pod expected id uid d ht =>
    obtain ⟨-, -, -, -, hl⟩ := target_eq ht
    obtain ⟨hid, hb⟩ := submission_belongs hq ht
    exact h.submit hl hid hb (by rw [hs]; rfl) (by rw [hs]; rfl)
  | @cancel pod expected uid d ht =>
    obtain ⟨-, -, -, -, hl⟩ := target_eq ht
    exact h.onward hl (cancelActiveBuild_onward _) (by rw [hs]; rfl) (by rw [hs]; rfl)
  | editBuild he =>
    cases he <;> exact h.keep (hframe.daemons (by simp [part]) (by simp [part]))
      (hframe.runs (by simp [part]))
  | _ =>
    exact h.keep (hframe.daemons (by simp [part]) (by simp [part])) (hframe.runs (by simp [part]))

theorem staffed_env {e : EnvAction} (h : Staffed ρ n)
    (ha : EnvActs (ρ.store n) e (ρ.store (n + 1))) : Staffed ρ (n + 1) := by
  have hframe := ha.frame
  generalize hs : ρ.store (n + 1) = s' at ha
  cases ha with
  | podStatus | podTerminating | podGone => exact h.keep (by rw [hs]) (by rw [hs])
  | @runner uid e d d' hl ha =>
    by_cases hrun : e = .run
    · subst hrun
      simp only [Daemon.advance, Option.ite_none_right_eq_some, beq_iff_eq] at ha
      obtain ⟨hstage, hd⟩ := ha
      cases hd
      exact h.run hl hstage (by rw [hs]; rfl) (by rw [hs]; rfl)
    · exact h.onward hl (advance_onward ha hrun) (by rw [hs]; rfl)
        (by simp [hs, hrun, Cluster.setDaemon])
  | @retire uid id d hl =>
    exact h.onward hl (handleBuildRetirePost_onward id) (by rw [hs]; rfl) (by rw [hs]; rfl)
  | _ =>
    exact h.keep (hframe.daemons (by simp [envPart]) (by simp [envPart]))
      (hframe.runs (by simp [envPart]))

theorem staffed (ρ : w.Execution) (n : Nat) : Staffed ρ n := by
  induction n with
  | zero => constructor <;> simp [Run.store, ρ.zero, Semantics.start, World.initial]
  | succ n ih =>
    rcases store_succ ρ n with h | ⟨q, hq, ha⟩ | ⟨e, -, ha⟩
    · exact ih.keep (by rw [h]) (by rw [h])
    · exact staffed_acts ih hq ha
    · exact staffed_env ih ha

theorem born_uid {m : Nat} {p₀ p p₀' p' : Pod} (h : PodBirth ρ m p₀ p) (h' : PodBirth ρ m p₀' p') :
    p.uid = p'.uid := by
  obtain ⟨id, c, r, he⟩ := effect_of_acts ρ h.acts rfl
  have ha := effect_acts ρ he
  have hknown := h.known
  have hknown' := h'.known
  generalize ρ.store (m + 1) = s' at ha hknown hknown'
  cases ha with
  | nothing => exact absurd hknown h.fresh
  | createPod hu hf hn =>
    simp only [Cluster.createPod, hn, Option.isSome_none, Bool.false_eq_true, if_false,
      Finset.mem_insert, h.fresh, h'.fresh, or_false] at hknown hknown'
    rw [hknown, hknown']
  | editBuild hq => cases hq

theorem genesis_pod_unique (hg : w.genesis.isSome) {m m' : Nat} {p₀ p p₀' p' : Pod}
    (h : PodBirth ρ m p₀ p) (hc : controlledBy p uid) (h' : PodBirth ρ m' p₀' p')
    (hc' : controlledBy p' uid) : p.uid = p'.uid := by
  let P : Request → Prop := fun q => ∃ p, q = .createPod p ∧ controlledBy p uid
  have once : ∀ n t q n' t' q', ρ.sends n t q → P q → ρ.sends n' t' q' → P q' → n = n' := by
    rintro n t _ n' t' _ hs ⟨p, rfl, hp⟩ hs' ⟨p', rfl, hp'⟩
    exact genesisCreate_unique hg hs hs' hp hp'
  have hp : P (.createPod p₀) := ⟨p₀, rfl, by rwa [controlledBy, h.same.owners] at hc⟩
  have hp' : P (.createPod p₀') := ⟨p₀', rfl, by rwa [controlledBy, h'.same.owners] at hc'⟩
  obtain ⟨id, c, r, he⟩ := effect_of_acts ρ h.acts rfl
  obtain ⟨id', c', r', he'⟩ := effect_of_acts ρ h'.acts rfl
  rcases Nat.lt_trichotomy m m' with hlt | rfl | hlt
  · exact absurd hp' (he.last once hp rfl hlt he'.1)
  · exact born_uid h h'
  · exact absurd hp (he'.last once hp' rfl hlt he.1)

/-- What the calls of `backend.runBuild` of a run look like. -/
structure ExecutedOnce (ρ : w.Execution) (n : Nat) : Prop where
  pods : ((ρ.store n).runs.map Prod.fst).Nodup
  requests : ∀ r ∈ (ρ.store n).runs, ∃ b ∈ (ρ.store n).versions, b.uid = r.2
  builds : w.genesis.isSome → ((ρ.store n).runs.map Prod.snd).Nodup

/-- In every run a runner Pod starts at most one build, for the request of a stored build; and in a
Genesis installation no build is started twice, over all Pods together. -/
theorem executed_once (ρ : w.Execution) (n : Nat) : ExecutedOnce ρ n := by
  have h := staffed ρ n
  have belongs : ∀ r ∈ (ρ.store n).runs, Belongs ρ n r.1 r.2 := by
    intro r hr
    obtain ⟨d, hl, hid, hne, -⟩ := h.started r hr
    exact hid ▸ (h.employed r.1 d hl).belongs (hid ▸ hne)
  refine ⟨h.nodup, fun r hr => (belongs r hr).1, fun hg => ?_⟩
  refine h.nodup.of_map.map_on fun r hr r' hr' hid => ?_
  obtain ⟨m, p₀, p, -, hb, hu, hc⟩ := (belongs r hr).2 hg
  obtain ⟨m', p₀', p', -, hb', hu', hc'⟩ := (belongs r' hr').2 hg
  refine Prod.ext ?_ hid
  rw [← hu, ← hu', genesis_pod_unique hg hb hc hb' (hid ▸ hc')]

end KovaService.Safety
