import KovaService.Stage.Scope
import KovaService.Lib.Contract

/-!
Addresses of a recovery stage: an address determines its resource, namespace and name, and the scope
of a stage enumerates the addresses of its input.
-/

namespace KovaService.Stage

open Lib Lib.Unstructured Drain

def Segment (s : String) : Prop := '/' ∉ s.toList ∧ '?' ∉ s.toList

variable {s : String}

theorem segment_of_chars (h : ∀ c ∈ s.toList, c = '.' ∨ Api.isDNSLabelChar c) : Segment s := by
  constructor
  · intro hc
    rcases h _ hc with h | h
    · exact absurd h (by decide)
    · exact absurd h (by decide)
  · intro hc
    rcases h _ hc with h | h
    · exact absurd h (by decide)
    · exact absurd h (by decide)

theorem segment_label (h : Api.isDNS1123Label s) : Segment s := by
  simp only [Api.isDNS1123Label, Bool.and_eq_true] at h
  exact segment_of_chars fun c hc => .inr (Api.isDNSLabel_chars h.2 c hc)

theorem segment_subdomain (h : Api.isDNS1123Subdomain s) : Segment s :=
  segment_of_chars (Api.isDNS1123Subdomain_chars h)

variable {l : List String}

theorem intercalate_concat (h : l ≠ []) (s : String) :
    "/".intercalate (l ++ [s]) = "/".intercalate l ++ "/" ++ s := by
  rw [← String.toList_inj]
  simp only [String.toList_intercalate, String.toList_append, List.map_append, List.map_cons,
    List.map_nil]
  induction l with
  | nil => exact absurd rfl h
  | cons a l ih =>
    cases l with
    | nil => simp [List.intercalate]
    | cons b l =>
      simp only [List.map_cons, List.cons_append, List.intercalate_cons_cons] at ih ⊢
      rw [ih (by simp)]
      simp

theorem intercalate_inj {l' : List String} (hl : ∀ s ∈ l, '/' ∉ s.toList)
    (hl' : ∀ s ∈ l', '/' ∉ s.toList) (hne : l ≠ []) (hne' : l' ≠ [])
    (h : "/".intercalate l = "/".intercalate l') : l = l' := by
  have split : ∀ {l : List String}, (∀ s ∈ l, '/' ∉ s.toList) → l ≠ [] →
      ("/".intercalate l).toList.splitOn '/' = l.map String.toList := by
    intro l hl hne
    rw [String.toList_intercalate]
    refine List.splitOn_intercalate '/' (fun x hx => ?_) (by simpa using hne)
    obtain ⟨s, hs, rfl⟩ := List.mem_map.mp hx
    exact hl s hs
  have hmap : l.map String.toList = l'.map String.toList := by
    rw [← split hl hne, ← split hl' hne', h]
  exact List.map_injective_iff.mpr (fun _ _ => String.toList_inj.mp) hmap

theorem segments_slashless (r : Resource) {ns : String} (h : '/' ∉ ns.toList) :
    ∀ s ∈ r.segments ns, '/' ∉ s.toList := by
  cases r <;> simpa [Resource.segments] using h

theorem segments_ne_nil (r : Resource) (ns : String) : r.segments ns ≠ [] := by
  cases r <;> simp [Resource.segments]

theorem objectPath_eq (r : Resource) (ns name : String) :
    objectPath r ns name = "/".intercalate (r.segments ns ++ [name]) :=
  (intercalate_concat (segments_ne_nil r ns) name).symm

variable {r : Resource}

theorem objectPath_slashless {ns name : String} (hns : '/' ∉ ns.toList)
    (hname : '/' ∉ name.toList) : ∀ s ∈ r.segments ns ++ [name], '/' ∉ s.toList := by
  intro s hs
  rcases List.mem_append.mp hs with hs | hs
  · exact segments_slashless r hns s hs
  · rw [List.mem_singleton.mp hs]
    exact hname

theorem objectPath_inj {r' : Resource} {ns ns' name name' : String} (hns : Segment ns)
    (hns' : Segment ns') (hname : Segment name) (hname' : Segment name')
    (h : objectPath r ns name = objectPath r' ns' name') : r = r' ∧ ns = ns' ∧ name = name' := by
  rw [objectPath_eq, objectPath_eq] at h
  have hl := intercalate_inj (objectPath_slashless hns.1 hname.1)
    (objectPath_slashless hns'.1 hname'.1) (by simp) (by simp) h
  cases r <;> cases r' <;> simp_all [Resource.segments]

theorem namespacePath_ne_objectPath {n ns name : String} (hn : Segment n) (hns : Segment ns)
    (hname : Segment name) : namespacePath n ≠ objectPath r ns name := by
  rw [objectPath_eq, namespacePath]
  intro h
  have hl := intercalate_inj (by simpa using hn.1) (objectPath_slashless hns.1 hname.1) (by simp)
    (by simp) h
  cases r <;> simp [Resource.segments] at hl

theorem query_notMem_intercalate (h : ∀ s ∈ l, '?' ∉ s.toList) :
    '?' ∉ ("/".intercalate l).toList := by
  rw [String.toList_intercalate]
  induction l with
  | nil => simp [List.intercalate]
  | cons a l ih =>
    have ha := h a List.mem_cons_self
    have hl := ih fun s hs => h s (List.mem_cons_of_mem _ hs)
    cases l with
    | nil => simpa [List.intercalate] using ha
    | cons b l =>
      simp only [List.map_cons, List.intercalate_cons_cons, List.mem_append, not_or] at hl ⊢
      exact ⟨⟨ha, by decide⟩, hl⟩

theorem stageAddress_cases {key : Key} {path : String} (h : stageAddress r key = some path) :
    Segment key.name ∧
      (r = .namespace_ ∧ key.namespaceName = "" ∧ path = namespacePath key.name ∨
        r ≠ .namespace_ ∧ Segment key.namespaceName ∧
          path = objectPath r key.namespaceName key.name) := by
  unfold stageAddress at h
  split_ifs at h with hname hr hns hlabel
  all_goals
    cases h
    simp only [Bool.not_eq_true', Bool.not_eq_false] at hname
    refine ⟨segment_subdomain hname, ?_⟩
  · simp only [bne_iff_ne, ne_eq, not_not] at hns
    exact .inl ⟨hr, hns, rfl⟩
  · simp only [Bool.not_eq_true', Bool.not_eq_false] at hlabel
    exact .inr ⟨hr, segment_label hlabel, rfl⟩

theorem stageAddress_queryless {key : Key} {path : String} (h : stageAddress r key = some path) :
    '?' ∉ path.toList := by
  obtain ⟨hname, ⟨-, -, rfl⟩ | ⟨-, hns, rfl⟩⟩ := stageAddress_cases h
  · refine query_notMem_intercalate ?_
    simpa using hname.2
  · rw [objectPath_eq]
    refine query_notMem_intercalate ?_
    cases r <;> simpa [Resource.segments] using ⟨hns.2, hname.2⟩

/-- The part of a scope that `addTarget` has filled for these names. -/
structure Enumerates (T : Tools) (e : EpochIdentity) (ts : List (Kind × String)) (s : StageScope) :
    Prop where
  names : ∀ t ∈ ts, Api.isDNS1123Subdomain t.2
  targets : ∀ path, path ∈ s.targets ↔ ∃ t ∈ ts, path = targetPath e t
  attempts : ∀ path data, s.attempts.lookup path = some data →
    ∃ t ∈ ts, path = attemptPath T e t ∧ data = attemptData e t.1 t.2
  attempted : ∀ t ∈ ts, (s.attempts.lookup (attemptPath T e t)).isSome

variable {T : Tools} {s : StageScope}

theorem addTarget_enumerates {e : EpochIdentity} {ts : List (Kind × String)} {s' : StageScope}
    {t : Kind × String} (hs : Enumerates T e ts s)
    (h : addTarget T e s t = .ok s') :
    Enumerates T e (ts ++ [t]) s' ∧ s'.incident = s.incident ∧ s'.epochUID = s.epochUID := by
  unfold addTarget at h
  split_ifs at h with hname
  cases h
  simp only [Bool.not_eq_true', Bool.not_eq_false] at hname
  refine ⟨⟨?_, ?_, ?_, ?_⟩, rfl, rfl⟩
  · intro t' ht'
    rcases List.mem_append.mp ht' with ht' | ht'
    · exact hs.names t' ht'
    · rw [List.mem_singleton.mp ht']
      exact hname
  · intro path
    rw [List.mem_append, hs.targets path]
    simp only [List.mem_append, List.mem_singleton, or_and_right, exists_or, exists_eq_left]
  · intro path data hl
    by_cases hp : path = attemptPath T e t
    · subst hp
      rw [Finmap.lookup_insert] at hl
      cases hl
      exact ⟨t, by simp, rfl, rfl⟩
    · rw [Finmap.lookup_insert_of_ne _ hp] at hl
      obtain ⟨t', ht', hpath, hdata⟩ := hs.attempts path data hl
      exact ⟨t', List.mem_append_left _ ht', hpath, hdata⟩
  · intro t' ht'
    by_cases hp : attemptPath T e t' = attemptPath T e t
    · rw [hp, Finmap.lookup_insert]
      rfl
    · rw [Finmap.lookup_insert_of_ne _ hp]
      rcases List.mem_append.mp ht' with ht' | ht'
      · exact hs.attempted t' ht'
      · rw [List.mem_singleton.mp ht'] at hp
        exact absurd rfl hp

/-- The scope of a drain enumerates its names. -/
structure DrainScope (T : Tools) (i : Drain.Input) (s : StageScope) : Prop where
  namespaceName : Api.isDNS1123Label i.expected.epoch.namespaceName
  receiptNamespace : Api.isDNS1123Label i.expected.epoch.receiptNamespace
  enumerates : Enumerates T i.expected.epoch (stageTargets i) s
  incident : s.incident = i.expected.incidentID
  epochUID : s.epochUID = i.expected.epoch.namespaceUID

theorem addNS_label {systemUID name uid : String} {l l' : List (String × String)}
    (h : addNS systemUID l name uid = .ok l') : Api.isDNS1123Label name := by
  unfold addNS at h
  split_ifs at h with hc
  simp only [Bool.or_eq_true, not_or, Bool.not_eq_true', Bool.not_eq_false] at hc
  exact hc.1.1.1.1.2

theorem drainScope_enumerates {systemUID : String} {i : Drain.Input}
    (h : drainScope T systemUID i = .ok s) : DrainScope T i s := by
  unfold drainScope at h
  obtain ⟨one, hone, h⟩ := bind_ok h
  obtain ⟨namespaces, hns, h⟩ := bind_ok h
  simp only at h
  split at h
  · cases h
  obtain ⟨reads, -, h⟩ := bind_ok h
  have hall : Enumerates T i.expected.epoch (stageTargets i) s ∧
      s.incident = i.expected.incidentID ∧ s.epochUID = i.expected.epoch.namespaceUID := by
    refine foldlM_invariant (fun ts s => Enumerates T i.expected.epoch ts s ∧
      s.incident = i.expected.incidentID ∧ s.epochUID = i.expected.epoch.namespaceUID) ?_ ?_ h
    · intro ts t s s' hs hadd
      obtain ⟨he, hincident, hepoch⟩ := addTarget_enumerates hs.1 hadd
      exact ⟨he, hincident.trans hs.2.1, hepoch.trans hs.2.2⟩
    · exact ⟨⟨by simp, by simp, by simp, by simp⟩, rfl, rfl⟩
  exact ⟨addNS_label hone, addNS_label hns, hall.1, hall.2.1, hall.2.2⟩

theorem DrainScope.withNamespaces {i : Drain.Input} (h : DrainScope T i s) :
    DrainScope T i (withNamespaces s) :=
  ⟨h.namespaceName, h.receiptNamespace,
    ⟨h.enumerates.names, h.enumerates.targets, h.enumerates.attempts, h.enumerates.attempted⟩,
    h.incident, h.epochUID⟩

theorem newStageScope_enumerates {p : StagePins} (h : newStageScope T p = .ok s) :
    (∃ i, p.drain = some i ∧ DrainScope T i s) ∨
      p.inventory ≠ none ∧ s.targets = [] ∧ s.attempts = ∅ := by
  unfold newStageScope at h
  split at h
  · next i _ hinventory =>
    right
    refine ⟨by rw [hinventory]; exact Option.some_ne_none i, ?_⟩
    cases hc : collectScope p.systemNamespaceUID i with
    | error e =>
      rw [hc] at h
      cases h
    | ok s' =>
      rw [hc] at h
      cases h
      obtain ⟨one, -, hc⟩ := bind_ok hc
      obtain ⟨namespaces, -, hc⟩ := bind_ok hc
      cases hc
      exact ⟨rfl, rfl⟩
  · next i _ hdrain =>
    left
    cases hd : drainScope T p.systemNamespaceUID i with
    | error e =>
      rw [hd] at h
      cases h
    | ok s' =>
      rw [hd] at h
      cases h
      exact ⟨i, hdrain, (drainScope_enumerates hd).withNamespaces⟩
  · cases h

theorem prepareStage_inventory {roots : List (String × String × String) →
    Except String (List (String × String × String))} {p pins : StagePins} {action : String}
    (h : prepareStage T roots p action = .ok pins) (hd : pins.drain ≠ none) :
    pins.inventory = none := by
  unfold prepareStage at h
  split at h
  · cases h
  obtain ⟨q, hq, h⟩ := bind_ok h
  obtain ⟨-, -, h⟩ := bind_ok h
  cases h
  unfold actionPins at hq
  split at hq
  · next hdrain _ =>
    unfold collectPins at hq
    split_ifs at hq
    cases hq
    exact absurd hdrain hd
  · next hinventory _ _ =>
    unfold drainPins at hq
    split at hq
    · cases hq
    obtain ⟨r, -, hq⟩ := bind_ok hq
    split at hq
    · cases hq
    split at hq
    · cases hq
    · cases hq
      exact hinventory
  · cases hq

end KovaService.Stage
