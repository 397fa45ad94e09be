import KovaService.Drain.Program
import KovaService.Lib.Contract

/-!
Recovery drain: what the targets of an input are.

Every intent of the input is a target's receipt, and a target carries all the receipts of its name.
-/

namespace KovaService.Drain

open Api Ledger Lib

variable {l : List Target} {names : List (Kind × String)} {qs : List QueueIntent}
variable {targets : List Target} {exp : Expectation} {gs : List GrantIntent} {item : Target}
variable {l' : List Target} {i : Input} {t : Target}

def linkedNames : ReceiptData → List (Kind × String)
  | .queue q => [(.kovaBuild, q.buildName)]
  | .grant g => [(.kovaBuild, g.build.buildName)]
  | .podCreate p => [(.kovaBuild, p.build.buildName), (.pod, p.podName)]

def BuildInEpoch (e : EpochIdentity) (b : PinnedBuild) : Prop :=
  sameEpoch e b.namespaceName b.namespaceUID b.genesisName b.receiptNamespace b.receiptNamespaceUID
    b.genesisUID b.generation b.activeLedgerUID b.queueLedgerUID ∧
    b.workerPoolID = e.workerPoolID

def InEpoch (e : EpochIdentity) : ReceiptData → Prop
  | .queue q => sameEpoch e q.namespaceName q.namespaceUID q.genesisName q.receiptNamespace
      q.receiptNamespaceUID q.genesisUID q.generation q.activeLedgerUID q.queueLedgerUID
  | .grant g => BuildInEpoch e g.build
  | .podCreate p => BuildInEpoch e p.build

variable {name : String}

theorem findTarget_mem (h : findTarget l name = some t) : t ∈ l ∧ t.name = name :=
  ⟨List.mem_of_find?_eq_some h, by simpa using List.find?_some h⟩

theorem findTarget_none (h : findTarget l name = none) : ∀ t ∈ l, t.name ≠ name := by
  intro t ht
  simpa using List.find?_eq_none.mp h t ht

def Distinct (l : List Target) : Prop := (l.map (·.name)).Nodup

theorem Distinct.eq (h : Distinct l) {t' : Target} (ht : t ∈ l) (ht' : t' ∈ l)
    (hn : t.name = t'.name) : t = t' :=
  List.inj_on_of_nodup_map h ht ht' hn

theorem Distinct.append (h : Distinct l) (ht : ∀ t' ∈ l, t'.name ≠ t.name) :
    Distinct (l ++ [t]) := by
  unfold Distinct
  rw [List.map_append, List.nodup_append]
  refine ⟨h, by simp, ?_⟩
  intro a ha b hb
  obtain ⟨t', ht', rfl⟩ := List.mem_map.mp ha
  simp only [List.map_cons, List.map_nil, List.mem_singleton] at hb
  rw [hb]
  exact ht t' ht'

theorem putTarget_names (l : List Target) (item : Target) :
    (putTarget l item).map (·.name) = l.map (·.name) := by
  unfold putTarget
  rw [List.map_map]
  refine List.map_congr_left fun t _ => ?_
  simp only [Function.comp_apply]
  split
  · next h => exact (beq_iff_eq.mp h).symm
  · rfl

theorem Distinct.put (h : Distinct l) (item : Target) : Distinct (putTarget l item) := by
  unfold Distinct
  rw [putTarget_names]
  exact h

theorem mem_putTarget (h : t ∈ putTarget l item) :
    t = item ∧ (∃ t' ∈ l, t'.name = item.name) ∨ t ∈ l ∧ t.name ≠ item.name := by
  obtain ⟨t', ht', he⟩ := List.mem_map.mp h
  by_cases hn : t'.name = item.name
  · rw [if_pos (beq_iff_eq.mpr hn)] at he
    exact .inl ⟨he.symm, t', ht', hn⟩
  · rw [if_neg (by simpa using hn)] at he
    subst he
    exact .inr ⟨ht', hn⟩

theorem putTarget_mem_self (h : t ∈ l) (hn : t.name = item.name) : item ∈ putTarget l item :=
  List.mem_map.mpr ⟨t, h, if_pos (beq_iff_eq.mpr hn)⟩

theorem putTarget_mem_other (h : t ∈ l) (hn : t.name ≠ item.name) : t ∈ putTarget l item :=
  List.mem_map.mpr ⟨t, h, if_neg (by simpa using hn)⟩

/-- The build targets after these queue and grant intents. -/
structure BuildLinks (qs : List QueueIntent) (gs : List GrantIntent) (l : List Target) : Prop where
  distinct : Distinct l
  kind : ∀ t ∈ l, t.kind = .kovaBuild
  queued : ∀ q ∈ qs, ∃ t ∈ l, t.queue = some q
  granted : ∀ g ∈ gs, ∃ t ∈ l, t.grant = some g
  queue : ∀ t ∈ l, ∀ q, t.queue = some q → q ∈ qs ∧ q.buildName = t.name
  grant : ∀ t ∈ l, ∀ g, t.grant = some g → g ∈ gs ∧ g.build.buildName = t.name
  linked : ∀ t ∈ l, t.queue.isSome ∨ t.grant.isSome

theorem buildLinks_nil : BuildLinks [] [] [] := by
  constructor <;> simp [Distinct]

theorem BuildLinks.append (hi : BuildLinks qs gs l) (hk : t.kind = .kovaBuild)
    (hnew : findTarget l t.name = none) (hq : ∀ q, t.queue = some q → q.buildName = t.name)
    (hg : ∀ g, t.grant = some g → g.build.buildName = t.name)
    (ht : t.queue.isSome ∨ t.grant.isSome) :
    BuildLinks (qs ++ t.queue.toList) (gs ++ t.grant.toList) (l ++ [t]) where
  distinct := hi.distinct.append (findTarget_none hnew)
  kind := forall_snoc hi.kind hk
  queued := by
    intro q h
    rcases List.mem_append.mp h with h | h
    · obtain ⟨t', ht', h⟩ := hi.queued q h
      exact ⟨t', List.mem_append_left _ ht', h⟩
    · exact ⟨t, by simp, by simpa using h⟩
  granted := by
    intro g h
    rcases List.mem_append.mp h with h | h
    · obtain ⟨t', ht', h⟩ := hi.granted g h
      exact ⟨t', List.mem_append_left _ ht', h⟩
    · exact ⟨t, by simp, by simpa using h⟩
  queue := forall_snoc
    (fun t' ht' q h => ⟨List.mem_append_left _ (hi.queue t' ht' q h).1, (hi.queue t' ht' q h).2⟩)
    fun q h => ⟨by simp [h], hq q h⟩
  grant := forall_snoc
    (fun t' ht' g h => ⟨List.mem_append_left _ (hi.grant t' ht' g h).1, (hi.grant t' ht' g h).2⟩)
    fun g h => ⟨by simp [h], hg g h⟩
  linked := forall_snoc hi.linked ht

theorem linkQueue_links {e : EpochIdentity} {q : QueueIntent} (hi : BuildLinks qs [] l)
    (h : linkQueue e l q = .ok l') :
    BuildLinks (qs ++ [q]) [] l' ∧ InEpoch e (.queue q) := by
  unfold linkQueue at h
  split_ifs at h with hc
  cases h
  simp only [Bool.or_eq_true, not_or, Option.isSome_iff_ne_none, ne_eq, not_not,
    Bool.not_eq_true', Bool.not_eq_false] at hc
  refine ⟨?_, hc.1⟩
  exact hi.append (t := { kind := .kovaBuild, name := q.buildName, queue := some q }) rfl hc.2
    (by simp) (by simp) (.inl rfl)

variable {g : GrantIntent}

theorem buildLinks_grant (hi : BuildLinks qs gs l) (hm : item ∈ l)
    (hn : item.name = g.build.buildName) (hg : item.grant = none) :
    BuildLinks qs (gs ++ [g]) (putTarget l { item with grant := some g }) := by
  refine ⟨hi.distinct.put _, ?_, ?_, ?_, ?_, ?_, ?_⟩
  · intro t ht
    rcases mem_putTarget ht with ⟨rfl, -⟩ | ⟨ht, -⟩
    · exact hi.kind item hm
    · exact hi.kind t ht
  · intro q hq
    obtain ⟨t, ht, hqueue⟩ := hi.queued q hq
    by_cases he : t.name = item.name
    · cases hi.distinct.eq ht hm he
      exact ⟨_, putTarget_mem_self hm rfl, hqueue⟩
    · exact ⟨t, putTarget_mem_other ht he, hqueue⟩
  · refine forall_snoc (fun g' hg' => ?_) ⟨_, putTarget_mem_self hm rfl, rfl⟩
    obtain ⟨t, ht, hgrant⟩ := hi.granted g' hg'
    -- the target with a grant is another one
    have he : t.name ≠ item.name := by
      intro he
      cases hi.distinct.eq ht hm he
      rw [hg] at hgrant
      cases hgrant
    exact ⟨t, putTarget_mem_other ht he, hgrant⟩
  · intro t ht q hq
    rcases mem_putTarget ht with ⟨rfl, -⟩ | ⟨ht, -⟩
    · exact hi.queue item hm q hq
    · exact hi.queue t ht q hq
  · intro t ht g' hg'
    rcases mem_putTarget ht with ⟨rfl, -⟩ | ⟨ht, -⟩
    · cases hg'
      exact ⟨List.mem_append_right _ (List.mem_singleton.mpr rfl), hn.symm⟩
    · exact ⟨List.mem_append_left _ (hi.grant t ht g' hg').1, (hi.grant t ht g' hg').2⟩
  · intro t ht
    rcases mem_putTarget ht with ⟨rfl, -⟩ | ⟨ht, -⟩
    · exact .inr rfl
    · exact hi.linked t ht

/-- A grant of the epoch whose mode is that of its build. -/
def GrantLinked (exp : Expectation) (qs : List QueueIntent) (g : GrantIntent) : Prop :=
  InEpoch exp.epoch (.grant g) ∧
    match g.admissionMode with
    | .queued _ => ∃ q ∈ qs, q.buildName = g.build.buildName ∧ grantLinksQueue exp g q = true
    | .direct => ∀ q ∈ qs, q.buildName ≠ g.build.buildName

theorem ensureTarget_queue (hi : BuildLinks qs gs l) {q : QueueIntent} :
    (ensureTarget l name).2.queue = some q ↔ q ∈ qs ∧ q.buildName = name := by
  unfold ensureTarget
  split
  · next item hf =>
    obtain ⟨hm, rfl⟩ := findTarget_mem hf
    refine ⟨hi.queue item hm q, fun hq => ?_⟩
    obtain ⟨t, ht, htq⟩ := hi.queued q hq.1
    rwa [← hi.distinct.eq ht hm ((hi.queue t ht q htq).2.symm.trans hq.2)]
  · next hf =>
    refine ⟨by simp, fun hq => ?_⟩
    obtain ⟨t, ht, htq⟩ := hi.queued q hq.1
    exact absurd ((hi.queue t ht q htq).2.symm.trans hq.2) (findTarget_none hf t ht)

theorem putTarget_snoc (h : findTarget l t.name = none) (hn : item.name = t.name) :
    putTarget (l ++ [item]) t = l ++ [t] := by
  have hl : putTarget l t = l.map id :=
    List.map_congr_left fun t' ht' => by simp [findTarget_none h t' ht']
  rw [List.map_id] at hl
  rw [putTarget, List.map_append, ← putTarget, hl]
  simp [hn]

theorem linkGrant_links (hi : BuildLinks qs gs l) (h : linkGrant exp l g = .ok l') :
    BuildLinks qs (gs ++ [g]) l' ∧ GrantLinked exp qs g := by
  have hqueue : ∀ q, (ensureTarget l g.build.buildName).2.queue = some q ↔ _ := fun q =>
    ensureTarget_queue hi
  unfold linkGrant at h
  simp only at h
  split_ifs at h with hepoch htop hlink
  cases h
  simp only [grantTopology, Bool.not_eq_true', Bool.not_eq_false, Bool.and_eq_true,
    Option.isNone_iff_eq_none] at htop
  simp only [Bool.or_eq_true, not_or, Bool.not_eq_true', Bool.not_eq_false, bne_iff_ne, ne_eq,
    not_not] at hepoch
  refine ⟨?_, hepoch, ?_⟩
  · unfold ensureTarget at htop ⊢
    split at htop
    · next item hf => exact buildLinks_grant hi (findTarget_mem hf).1 (findTarget_mem hf).2 htop.1
    next hf =>
    simp only
    rw [putTarget_snoc hf]
    · simpa using hi.append
        (t := { kind := .kovaBuild, name := g.build.buildName, grant := some g }) rfl hf (by simp)
        (by simp) (.inr rfl)
    · rfl
  · cases hmode : g.admissionMode with
    | queued link =>
      simp only [hmode, Option.isSome_iff_exists] at htop
      obtain ⟨q, hq⟩ := htop.2
      exact ⟨q, ((hqueue q).mp hq).1, ((hqueue q).mp hq).2, by simpa [hq] using hlink⟩
    | direct =>
      simp only [hmode, Option.isNone_iff_eq_none] at htop
      intro q hq hn
      rw [(hqueue q).mpr ⟨hq, hn⟩] at htop
      cases htop.2

/-- The Pod targets after these intents, where `gs` are the granted builds. -/
structure PodLinks (gs : List GrantIntent) (ps : List PodCreateIntent) (l : List Target) : Prop where
  distinct : Distinct l
  kind : ∀ t ∈ l, t.kind = .pod
  covered : ∀ p ∈ ps, ∃ t ∈ l, t.name = p.podName
  grant : ∀ t ∈ l, ∃ g ∈ gs, t.grant = some g ∧ t.name = buildPodName g.build.buildName
  pods : ∀ t ∈ l, t.pods ≠ [] ∧ t.pods = ps.filter (·.podName == t.name)
  build : ∀ t ∈ l, ∀ p ∈ t.pods, ∀ g, t.grant = some g → g.build = p.build

theorem podLinks_nil (gs : List GrantIntent) : PodLinks gs [] [] := by
  constructor <;> simp [Distinct]

theorem buildPodName_inj {a b : String} (h : buildPodName a = buildPodName b) : a = b :=
  (String.append_right_inj _).mp h

theorem linkPod_links {byBuild : List Target} {ps : List PodCreateIntent} {p : PodCreateIntent}
    (hb : BuildLinks qs gs byBuild) (hi : PodLinks gs ps l) (h : linkPod exp byBuild l p = .ok l') :
    PodLinks gs (ps ++ [p]) l' ∧ ∃ g ∈ gs, g.build = p.build ∧
      linksRef p.grantReceipt (findRef exp "grant" p.grantReceipt.name) := by
  unfold linkPod at h
  split at h
  · cases h
  next g hg =>
  split_ifs at h with hc
  simp only [Bool.or_eq_true, not_or, bne_iff_ne, ne_eq, not_not, Bool.not_eq_true',
    Bool.not_eq_false] at hc
  obtain ⟨⟨hbuild, hlink⟩, hname⟩ := hc
  obtain ⟨bt, hbt, hgrant⟩ := Option.bind_eq_some_iff.mp hg
  obtain ⟨hbm, hbn⟩ := findTarget_mem hbt
  have hgs := (hb.grant bt hbm g hgrant).1
  refine ⟨?_, g, hgs, hbuild, hlink⟩
  have other : ∀ t ∈ l, t.name ≠ p.podName → t.pods ≠ [] ∧
      t.pods = (ps ++ [p]).filter (·.podName == t.name) := by
    intro t ht hn
    simpa [hn.symm] using hi.pods t ht
  split at h
  · next hnone =>
    cases h
    have hnew := findTarget_none hnone
    refine ⟨hi.distinct.append hnew, forall_snoc hi.kind rfl, ?_, forall_snoc hi.grant ?_,
      forall_snoc (fun t ht => other t ht (hnew t ht)) ?_, forall_snoc hi.build ?_⟩
    · refine forall_snoc (fun p' hp' => ?_) ⟨_, List.mem_append_right _ List.mem_cons_self, rfl⟩
      obtain ⟨t, ht, hn⟩ := hi.covered p' hp'
      exact ⟨t, List.mem_append_left _ ht, hn⟩
    · exact ⟨g, hgs, rfl, by rw [hbuild]; exact hname⟩
    · have hps : ps.filter (·.podName == p.podName) = [] := by
        refine List.filter_eq_nil_iff.mpr fun p' hp' he => ?_
        obtain ⟨t, ht, hn⟩ := hi.covered p' hp'
        exact hnew t ht (hn.trans (by simpa using he))
      simp [hps]
    · intro p' hp' g' hg'
      cases hg'
      rw [List.mem_singleton.mp hp', hbuild]
  next item hitem =>
  cases h
  obtain ⟨hm, hn⟩ := findTarget_mem hitem
  -- the grant of the Pod target is the one of the same build
  have hsame : ∀ g', item.grant = some g' → g'.build = p.build := by
    intro g' hg'
    obtain ⟨g₁, hg₁, heq, hname₁⟩ := hi.grant item hm
    rw [heq] at hg'
    cases hg'
    have hbn₁ : g'.build.buildName = p.build.buildName :=
      buildPodName_inj (hname₁.symm.trans (hn.trans hname))
    obtain ⟨bt', hbm', hgrant'⟩ := hb.granted g' hg₁
    have hbn' := (hb.grant bt' hbm' g' hgrant').2
    cases hb.distinct.eq hbm' hbm (hbn'.symm.trans (hbn₁.trans hbn.symm))
    rw [hgrant] at hgrant'
    cases hgrant'
    exact hbuild
  have put : ∀ {P : Target → Prop}, P { item with pods := item.pods ++ [p] } →
      (∀ t ∈ l, t.name ≠ p.podName → P t) →
      ∀ t ∈ putTarget l { item with pods := item.pods ++ [p] }, P t := by
    intro P hnew hold t ht
    rcases mem_putTarget ht with ⟨rfl, -⟩ | ⟨ht, hne⟩
    · exact hnew
    · exact hold t ht (hn ▸ hne)
  refine ⟨hi.distinct.put _, put (hi.kind item hm) fun t ht _ => hi.kind t ht, ?_,
    put (hi.grant item hm) fun t ht _ => hi.grant t ht, put ?_ other,
    put ?_ fun t ht _ => hi.build t ht⟩
  · have hcov : ∀ t ∈ l, ∃ t' ∈ putTarget l { item with pods := item.pods ++ [p] },
        t'.name = t.name := by
      intro t ht
      by_cases he : t.name = item.name
      · exact ⟨_, putTarget_mem_self hm rfl, he.symm⟩
      · exact ⟨t, putTarget_mem_other ht he, rfl⟩
    refine forall_snoc (fun p' hp' => ?_) ?_
    · obtain ⟨t, ht, htn⟩ := hi.covered p' hp'
      exact htn ▸ hcov t ht
    · exact hn ▸ hcov item hm
  · simpa [hn] using (hi.pods item hm).2
  · exact forall_snoc (hi.build item hm) hsame

/-- What is known of the two maps when all intents are linked. -/
structure Linked (i : Input) (byBuild byPod : List Target) : Prop where
  builds : BuildLinks i.queues i.grants byBuild
  pods : PodLinks i.grants i.podCreates byPod
  queue : ∀ q ∈ i.queues, InEpoch i.expected.epoch (.queue q)
  grant : ∀ g ∈ i.grants, GrantLinked i.expected i.queues g
  pod : ∀ p ∈ i.podCreates, ∃ g ∈ i.grants, g.build = p.build ∧
    linksRef p.grantReceipt (findRef i.expected "grant" p.grantReceipt.name)

theorem linkTargets_links (h : linkTargets i = .ok targets) :
    ∃ byBuild byPod, Linked i byBuild byPod ∧
      targets = (byBuild ++ byPod).mergeSort Target.le := by
  obtain ⟨queued, hq, h⟩ := bind_ok h
  obtain ⟨byBuild, hg, h⟩ := bind_ok h
  obtain ⟨byPod, hp, h⟩ := bind_ok h
  cases h
  have hqueued : BuildLinks i.queues [] queued ∧
      ∀ q ∈ i.queues, InEpoch i.expected.epoch (.queue q) := by
    refine foldlM_invariant (fun qs l => BuildLinks qs [] l ∧ ∀ q ∈ qs, InEpoch _ (.queue q)) ?_
      ⟨buildLinks_nil, by simp⟩ hq
    intro qs q l l' hl hlink
    exact (linkQueue_links hl.1 hlink).imp id (forall_snoc hl.2)
  have hbuilds : BuildLinks i.queues i.grants byBuild ∧
      ∀ g ∈ i.grants, GrantLinked i.expected i.queues g := by
    refine foldlM_invariant (fun gs l => BuildLinks i.queues gs l ∧ ∀ g ∈ gs, GrantLinked _ _ g) ?_
      ⟨hqueued.1, by simp⟩ hg
    intro gs g l l' hl hlink
    exact (linkGrant_links hl.1 hlink).imp id (forall_snoc hl.2)
  obtain ⟨hpods, hpod⟩ : PodLinks i.grants i.podCreates byPod ∧
      ∀ p ∈ i.podCreates, ∃ g ∈ i.grants, g.build = p.build ∧
        linksRef p.grantReceipt (findRef i.expected "grant" p.grantReceipt.name) := by
    refine foldlM_invariant (fun ps l => PodLinks i.grants ps l ∧ ∀ p ∈ ps, ∃ g ∈ i.grants,
      g.build = p.build ∧ linksRef p.grantReceipt (findRef _ "grant" p.grantReceipt.name)) ?_
      ⟨podLinks_nil _, by simp⟩ hp
    intro ps p l l' hl hlink
    exact (linkPod_links hbuilds.1 hl.1 hlink).imp id (forall_snoc hl.2)
  exact ⟨byBuild, byPod, ⟨hbuilds.1, hpods, hqueued.2, hbuilds.2, hpod⟩, rfl⟩

def NamedIn (names : List (Kind × String)) (l : List Target) : Prop :=
  ∀ t ∈ l, (t.kind, t.name) ∈ names

theorem Linked.named {byBuild byPod : List Target} (h : Linked i byBuild byPod) :
    NamedIn (i.queues.map (fun q => (.kovaBuild, q.buildName)) ++
      i.grants.map (fun g => (.kovaBuild, g.build.buildName)) ++
      i.podCreates.map fun p => (.pod, p.podName)) (byBuild ++ byPod) := by
  intro t ht
  simp only [List.mem_append, List.mem_map]
  rcases List.mem_append.mp ht with ht | ht
  · rw [h.builds.kind t ht]
    rcases h.builds.linked t ht with hs | hs <;> obtain ⟨x, hx⟩ := Option.isSome_iff_exists.mp hs
    · exact .inl (.inl ⟨x, (h.builds.queue t ht x hx).1, by rw [(h.builds.queue t ht x hx).2]⟩)
    · exact .inl (.inr ⟨x, (h.builds.grant t ht x hx).1, by rw [(h.builds.grant t ht x hx).2]⟩)
  · rw [h.pods.kind t ht]
    obtain ⟨hne, heq⟩ := h.pods.pods t ht
    obtain ⟨p, hp⟩ := List.exists_mem_of_ne_nil _ hne
    rw [heq, List.mem_filter, beq_iff_eq] at hp
    exact .inr ⟨p, hp.1, by rw [hp.2]⟩

theorem linkTargets_named (h : linkTargets i = .ok targets) :
    NamedIn (i.queues.map (fun q => (.kovaBuild, q.buildName)) ++
      i.grants.map (fun g => (.kovaBuild, g.build.buildName)) ++
      i.podCreates.map fun p => (.pod, p.podName)) targets := by
  obtain ⟨byBuild, byPod, hl, rfl⟩ := linkTargets_links h
  exact fun t ht => hl.named t (List.mem_mergeSort.mp ht)

theorem linkTargets_covers (h : linkTargets i = .ok targets) {d : ReceiptData} (hd : d ∈ i.intents)
    {kind : Kind}
    (hn : (kind, name) ∈ linkedNames d) : ∃ t ∈ targets, t.kind = kind ∧ t.name = name := by
  obtain ⟨byBuild, byPod, hl, rfl⟩ := linkTargets_links h
  obtain ⟨hb, hp, -, -, hpod⟩ := hl
  simp only [List.mem_mergeSort, List.mem_append]
  have ofGrant : ∀ g ∈ i.grants, ∃ t, (t ∈ byBuild ∨ t ∈ byPod) ∧ t.kind = .kovaBuild ∧
      t.name = g.build.buildName := fun g hg => by
    obtain ⟨t, ht, htg⟩ := hb.granted g hg
    exact ⟨t, .inl ht, hb.kind t ht, (hb.grant t ht g htg).2.symm⟩
  simp only [Input.intents, List.mem_append, List.mem_map] at hd
  rcases hd with (⟨q, hq, rfl⟩ | ⟨g, hg, rfl⟩) | ⟨p, hp', rfl⟩
  · simp only [linkedNames, List.mem_singleton, Prod.mk.injEq] at hn
    obtain ⟨t, ht, htq⟩ := hb.queued q hq
    exact ⟨t, .inl ht, hn.1 ▸ hb.kind t ht, hn.2 ▸ (hb.queue t ht q htq).2.symm⟩
  · simp only [linkedNames, List.mem_singleton, Prod.mk.injEq] at hn
    exact hn.1 ▸ hn.2 ▸ ofGrant g hg
  · simp only [linkedNames, List.mem_cons, Prod.mk.injEq, List.not_mem_nil, or_false] at hn
    rcases hn with ⟨rfl, rfl⟩ | ⟨rfl, rfl⟩
    · obtain ⟨g, hg, hbuild, -⟩ := hpod p hp'
      exact hbuild ▸ ofGrant g hg
    · obtain ⟨t, ht, htn⟩ := hp.covered p hp'
      exact ⟨t, .inr ht, hp.kind t ht, htn⟩

/-- The object is the one the receipts of its name were written for: a build agrees with the queue
and the grant receipt, a Pod is the granted build's runner and agrees with one of the attempts. -/
def MatchesReceipts (T : Tools) (i : Input) : Occupant → Prop
  | .build b =>
    (∀ q ∈ i.queues, q.buildName = b.metadata.name → buildMatchesQueue T b q) ∧
      (∀ g ∈ i.grants, g.build.buildName = b.metadata.name → buildMatchesGrant T b g.build)
  | .pod p => ∃ g ∈ i.grants, ∃ a ∈ i.podCreates,
      a.podName = p.metadata.name ∧ a.build = g.build ∧ runnerPod p g.build ∧
        podMatches T p a

theorem matchesReceipts_of_original {T : Tools} (h : linkTargets i = .ok targets)
    (hi : item ∈ targets) {o : Occupant}
    (ho : qualifyOriginal T item o = .ok ()) : MatchesReceipts T i o := by
  obtain ⟨byBuild, byPod, ⟨hb, hp, -⟩, rfl⟩ := linkTargets_links h
  rw [List.mem_mergeSort, List.mem_append] at hi
  cases o with
  | build b =>
    simp only [qualifyOriginal] at ho
    split_ifs at ho with hid hq hg
    simp only [Bool.or_eq_true, not_or, bne_iff_ne, ne_eq, not_not] at hid
    obtain ⟨⟨⟨⟨⟨hkind, -⟩, -⟩, hname⟩, -⟩, -⟩ := hid
    have hm : item ∈ byBuild := by
      refine hi.resolve_right fun hm => ?_
      rw [hp.kind item hm] at hkind
      cases hkind
    refine ⟨fun q hqs hn => ?_, fun g hgs hn => ?_⟩
    · obtain ⟨t, ht, htq⟩ := hb.queued q hqs
      cases hb.distinct.eq ht hm ((hb.queue t ht q htq).2.symm.trans (hn.trans hname))
      simpa [htq] using hq
    · obtain ⟨t, ht, htg⟩ := hb.granted g hgs
      cases hb.distinct.eq ht hm ((hb.grant t ht g htg).2.symm.trans (hn.trans hname))
      simpa [htg] using hg
  | pod p =>
    simp only [qualifyOriginal] at ho
    split at ho
    · next g hg =>
      split_ifs at ho with hid hany
      simp only [Bool.or_eq_true, not_or, bne_iff_ne, ne_eq, not_not, Bool.not_eq_true',
        Bool.not_eq_false] at hid
      obtain ⟨⟨hkind, hname⟩, hrunner⟩ := hid
      have hm : item ∈ byPod := by
        refine hi.resolve_left fun hm => ?_
        rw [hb.kind item hm] at hkind
        cases hkind
      obtain ⟨a, ha, hmatch⟩ := List.any_eq_true.mp hany
      obtain ⟨g', hgs, hg', -⟩ := hp.grant item hm
      rw [hg] at hg'
      cases hg'
      have hbuild := hp.build item hm a ha g hg
      rw [(hp.pods item hm).2, List.mem_filter, beq_iff_eq] at ha
      exact ⟨g, hgs, a, ha.1, ha.2.trans hname.symm, hbuild.symm, hrunner, hmatch⟩
    · cases ho

/-- An inert object that occupies the name for this incident. -/
def InertTombstone (exp : Expectation) (name : String) (o : Occupant) : Prop :=
  occupiedMarker o.metadata exp name ∧
    match o with
    | .build b => isInertBuildTombstone b = true
    | .pod p => inertPodSpec p.spec = true

theorem inertTombstone_of_qualified {o : Occupant} (h : qualifyTombstone exp item o = .ok ()) :
    InertTombstone exp item.name o := by
  unfold qualifyTombstone at h
  split_ifs at h with hm
  simp only [Bool.not_eq_true', Bool.not_eq_false] at hm
  refine ⟨hm, ?_⟩
  cases hk : item.kind <;> cases o <;> simp only [hk] at h
  · split_ifs at h with hb
    exact hb
  · cases h
  · cases h
  · split_ifs at h with hb
    exact hb

end KovaService.Drain
