import KovaService.Stage.Monitor

/-!
The mutations a recovery stage may send: the attempt records and tombstones its input enumerates,
and the recovery hold on an enumerated name.
-/

namespace KovaService.Stage

open Lib Lib.Json Lib.Unstructured Drain

/-- Metadata without the fields that no rule names. -/
def plain (m : ObjectMeta) : ObjectMeta := { m with other := "" }

/-- The mutations the input enumerates, given what was last observed. -/
inductive Permitted (T : Tools) (c : Codec) (i : Drain.Input) (w : View) :
    Method → String → Body → Prop
  | attempt {kind : Kind} {name : String} {cm : ConfigMap} (ht : (kind, name) ∈ stageTargets i)
      (hc : { cm with metadata := plain cm.metadata } =
        newAttempt T i.expected.epoch kind name) :
      Permitted T c i w .post (collection .configMap i.expected.epoch.namespaceName)
        (.object (createBody c .configMap (.configMap cm)))
  | build {name : String} {b : KovaBuild} (ht : (.kovaBuild, name) ∈ stageTargets i)
      (hb : { b with metadata := plain b.metadata, other := "" } =
        newBuildTombstone i.expected name) :
      Permitted T c i w .post (collection .kovaBuild i.expected.epoch.namespaceName)
        (.object (createBody c .kovaBuild (.kovaBuild b)))
  | pod {name : String} {p : Pod} (ht : (.pod, name) ∈ stageTargets i)
      (hp : { p with metadata := plain p.metadata, other := "" } =
        newPodTombstone i.expected name) :
      Permitted T c i w .post (collection .pod i.expected.epoch.namespaceName)
        (.object (createBody c .pod (.pod p)))
  | hold {t : Kind × String} {old : Value} {l : List String} (ht : t ∈ stageTargets i)
      (ho : w.observed (targetPath i.expected.epoch t) = some old)
      (hl : finalizersOf old = some l) (hh : recoveryHold ∉ l) :
      Permitted T c i w .patch (targetPath i.expected.epoch t)
        (.patch (holdPatch old (l ++ [recoveryHold])))

theorem digitChar_dns (n : Nat) :
    Api.isDNSLabelChar (Nat.digitChar (n % 16)) ∧ Nat.digitChar (n % 16) ≠ '-' ∧
      (String.ofList [Nat.digitChar (n % 16)]).utf8ByteSize = 1 := by
  have hlt : n % 16 < 16 := Nat.mod_lt _ (by decide)
  generalize n % 16 = d at hlt
  interval_cases d <;> decide

theorem hexText_chars (k n : Nat) : ∀ c ∈ hexText k n, Api.isDNSLabelChar c := by
  induction k generalizing n with
  | zero => simp [hexText]
  | succ k ih =>
    intro c hc
    rcases List.mem_append.mp hc with hc | hc
    · exact ih _ c hc
    · rw [List.mem_singleton.mp hc]
      exact (digitChar_dns n).1

theorem attemptName_chars (T : Tools) (e : EpochIdentity) (kind : Kind) (name : String) :
    ∀ c ∈ (occupancyAttemptName T e kind name).toList, Api.isDNSLabelChar c := by
  intro c hc
  simp only [occupancyAttemptName, String.toList_append, String.toList_ofList,
    List.mem_append] at hc
  rcases hc with hc | hc
  · have hall : attemptPrefix.toList.all Api.isDNSLabelChar := by decide +kernel
    exact List.all_eq_true.mp hall c hc
  · exact hexText_chars _ _ c hc

theorem segment_attemptName (T : Tools) (e : EpochIdentity) (kind : Kind) (name : String) :
    Segment (occupancyAttemptName T e kind name) :=
  segment_of_chars fun c hc => .inr (attemptName_chars T e kind name c hc)

theorem size_eq_zero {m : StringMap} (h : m.size = 0) : m = ∅ := by
  refine Finmap.ext_lookup fun a => ?_
  rw [Finmap.lookup_empty, Finmap.lookup_eq_none, ← Finmap.mem_keys, Finset.card_eq_zero.mp h]
  simp

theorem plain_of_proposed {m : ObjectMeta} (h : proposedMeta m) :
    plain m =
      { namespaceName := m.namespaceName, name := m.name, labels := m.labels,
        annotations := m.annotations, finalizers := [recoveryHold] } := by
  simp only [proposedMeta, Bool.and_eq_true, beq_iff_eq, Option.isNone_iff_eq_none] at h
  obtain ⟨⟨⟨⟨⟨huid, hrv⟩, hdel⟩, hgen⟩, howner⟩, hfin⟩ := h
  simp only [plain, huid, hrv, hdel, hgen, howner, hfin]

variable {path : String} {r : Resource} {options : Nat} {obj : Object} {c : Codec}

section Scope

variable {T : Tools} {x : Transport} {i : Drain.Input} (hs : DrainScope T i x.scope)

include hs

theorem created_attempt {cm : ConfigMap}
    (hpath : path = objectPath .configMap cm.metadata.namespaceName cm.metadata.name)
    (hns : Segment cm.metadata.namespaceName) (hname : Segment cm.metadata.name)
    (hv : validCreate x.scope path (.configMap cm)) :
    cm.metadata.namespaceName = i.expected.epoch.namespaceName ∧
      ∃ t ∈ stageTargets i, { cm with metadata := plain cm.metadata } =
        newAttempt T i.expected.epoch t.1 t.2 := by
  simp only [validCreate, Bool.and_eq_true, decide_eq_true_eq, beq_iff_eq] at hv
  obtain ⟨⟨⟨⟨⟨hmeta, hdata⟩, himm⟩, hbin⟩, hlabels⟩, hann⟩ := hv
  obtain ⟨t, ht, hp, hd⟩ := hs.enumerates.attempts path cm.data hdata
  obtain ⟨-, hn, hm⟩ := objectPath_inj hns (segment_label hs.namespaceName) hname
    (segment_attemptName T i.expected.epoch t.1 t.2) (hpath.symm.trans hp)
  refine ⟨hn, t, ht, ?_⟩
  rw [plain_of_proposed hmeta, hd, himm, size_eq_zero hbin, hlabels, size_eq_zero hann, hn, hm]
  rfl

theorem created_target {m : ObjectMeta} (hpath : path = objectPath r m.namespaceName m.name)
    (hns : Segment m.namespaceName) (hname : Segment m.name)
    (hv : tombstoneMeta x.scope path m) :
    m.namespaceName = i.expected.epoch.namespaceName ∧
      ∃ t ∈ stageTargets i, r = kindResource t.1 ∧ m.name = t.2 ∧
        plain m = newMeta i.expected t.2 := by
  simp only [tombstoneMeta, Bool.and_eq_true, decide_eq_true_eq, List.contains_eq_mem] at hv
  obtain ⟨⟨⟨hmeta, htarget⟩, hlabels⟩, hann⟩ := hv
  obtain ⟨t, ht, hp⟩ := (hs.enumerates.targets path).mp htarget
  obtain ⟨hr, hn, hm⟩ := objectPath_inj hns (segment_label hs.namespaceName) hname
    (segment_subdomain (hs.enumerates.names t ht)) (hpath.symm.trans hp)
  refine ⟨hn, t, ht, hr, hm, ?_⟩
  rw [plain_of_proposed hmeta, hlabels, hann, hn, hm, hs.incident, hs.epochUID]
  rfl

theorem created_permitted (w : View) (h : x.createAdmitted obj options = some (r, path)) :
    Permitted T c i w .post (collection r obj.key.namespaceName)
      (.object (createBody c r obj)) := by
  obtain ⟨hr, hp, hv⟩ := Transport.createAdmitted_cases h
  have hpath := Transport.createAdmitted_path h
  obtain ⟨hname, ⟨rfl, -, -⟩ | ⟨-, hns, -⟩⟩ := stageAddress_cases hp
  · cases obj <;> simp_all [validCreate, Object.outType, OutType.resource]
  cases obj with
  | configMap cm =>
    cases hr
    obtain ⟨hn, t, ht, hc⟩ := created_attempt hs hpath hns hname hv
    change Permitted T c i w .post (collection .configMap cm.metadata.namespaceName) _
    rw [hn]
    exact .attempt ht hc
  | kovaBuild b =>
    cases hr
    simp only [validCreate, Bool.and_eq_true] at hv
    obtain ⟨hn, ⟨kind, name⟩, ht, hk, hm, hmeta⟩ := created_target hs hpath hns hname hv.1
    cases kind with
    | pod => cases hk
    | kovaBuild =>
      change Permitted T c i w .post (collection .kovaBuild b.metadata.namespaceName) _
      rw [hn]
      refine .build ht ?_
      have hspec : b.spec = inertBuildSpec := by
        simpa [isInertBuildTombstone] using (Bool.and_eq_true_iff.mp hv.2).2
      rw [hmeta, hspec]
      rfl
  | pod p =>
    cases hr
    simp only [validCreate, Bool.and_eq_true, decide_eq_true_eq] at hv
    obtain ⟨hn, ⟨kind, name⟩, ht, hk, hm, hmeta⟩ := created_target hs hpath hns hname hv.1
    cases kind with
    | kovaBuild => cases hk
    | pod =>
      change Permitted T c i w .post (collection .pod p.metadata.namespaceName) _
      rw [hn]
      refine .pod ht ?_
      rw [hmeta, hv.2]
      rfl
  | namespace_ n => simp [validCreate] at hv
  | unstructured v => simp [validCreate] at hv
  | foreign => simp [validCreate] at hv

theorem updated_permitted {w : View} {observed : String → Option Value} {old : Value}
    (h : x.updateAdmitted observed obj options = some (r, path, old))
    (ho : w.observed path = some old) (hread : (finalizersOf old).isSome) :
    Permitted T c i w .patch path (.patch (holdPatch old obj.finalizers)) := by
  obtain ⟨-, -, -, htarget, hhold, hfin⟩ := Transport.updateAdmitted_cases h
  obtain ⟨l, hl⟩ := Option.isSome_iff_exists.mp hread
  obtain ⟨t, ht, rfl⟩ := (hs.enumerates.targets path).mp htarget
  rw [hfin]
  rw [getFinalizers_of_readable hl] at hhold ⊢
  exact .hold ht ho hl hhold

end Scope

/-- A mutation is one the input of the drain enumerates, if the finalizers last observed at its
address can be read. -/
def Contained (T : Tools) (c : Codec) (p : StagePins) (w : View) (method : Method) (path : String)
    (body : Body) : Prop :=
  (∀ old, w.observed path = some old → (finalizersOf old).isSome) →
    ∃ i, p.drain = some i ∧ Permitted T c i w method path body

theorem segment_system : Segment "kube-system" := by
  unfold Segment
  decide

theorem newStageScope_confined {T : Tools} {p : StagePins} {x : Transport}
    (h : newStageScope T p = .ok x.scope) : x.Confined (Contained T x.codec p) := by
  rcases newStageScope_enumerates h with ⟨i, hi, hs⟩ | ⟨-, htargets, hattempts⟩
  · refine ⟨?_, ?_, ?_⟩
    · exact fun w obj options r path ha _ => ⟨i, hi, created_permitted hs w ha⟩
    · exact fun w observed obj options r path old ha ho hread =>
        ⟨i, hi, updated_permitted hs ha ho (hread old ho)⟩
    · intro hmem
      obtain ⟨t, ht, hp⟩ := (hs.enumerates.targets _).mp hmem
      exact namespacePath_ne_objectPath segment_system (segment_label hs.namespaceName)
        (segment_subdomain (hs.enumerates.names t ht)) hp
  · -- the scope of a collection has nothing to write
    refine ⟨?_, ?_, ?_⟩
    · intro w obj options r path ha
      have hv := (Transport.createAdmitted_cases ha).2.2
      cases obj <;> simp [validCreate, tombstoneMeta, htargets, hattempts] at hv
    · intro w observed obj options r path old ha
      have ht := (Transport.updateAdmitted_cases ha).2.2.2.1
      rw [htargets] at ht
      cases ht
    · rw [htargets]
      exact List.not_mem_nil

end KovaService.Stage
