import KovaService.System.History

/-!
The history of the KovaBuilds.

A stored build is created once and then revised.  `versions` keeps every version ever stored, so a
lagging cache, a paused writer and a late answer all hold members of it.  A resourceVersion names one
version, a UID names one build, and a property that every revision keeps holds of every later
version.
-/

namespace KovaService.System

open Lib Api Ledger Runner

variable {w : World} (ρ : w.Execution) {b : KovaBuild} {current : KovaBuild}

/-- One stored version replaces another at instant `n`. -/
inductive Revision (n : Nat) (current : KovaBuild) : KovaBuild → Prop where
  | edit {q b change} (hq : ρ.acts n q) (he : Edits q b change) (hu : b.uid = current.uid)
      (hr : b.resourceVersion = current.resourceVersion) :
      Revision n current { change current with resourceVersion := (ρ.store n).clock + 1 }
  | cancel {text : String} (ht : text ≠ "") (hc : current.cancellationRequested = false) :
      Revision n current { current with
        annotations := { current.annotations with cancellationRequestedAt := text }
        resourceVersion := (ρ.store n).clock + 1 }
  | delete {now : Time} :
      Revision n current { current with
        deletionTimestamp := some now, resourceVersion := (ρ.store n).clock + 1 }

structure Creation (n : Nat) (b : KovaBuild) : Prop where
  uid_ne : b.uid ≠ ""
  fresh : b.uid ∉ (ρ.store n).uids
  known : b.uid ∈ (ρ.store (n + 1)).uids
  version : b.resourceVersion = (ρ.store n).clock + 1
  status : b.status = {}
  deletion : b.deletionTimestamp = none
  cause : unlinked b ∨ ∃ b₀, ρ.acts n (.createBuild b₀) ∧ b₀.name = b.name ∧
    b₀.annotations = b.annotations ∧ b₀.spec = b.spec

inductive BuildStep (n : Nat) : Prop where
  | keep (hb : (ρ.store (n + 1)).builds = (ρ.store n).builds)
      (hv : (ρ.store (n + 1)).versions = (ρ.store n).versions)
  | erase (name : String) (hb : (ρ.store (n + 1)).builds = (ρ.store n).builds.erase name)
      (hv : (ρ.store (n + 1)).versions = (ρ.store n).versions)
  | create (b : KovaBuild) (hc : Creation ρ n b) (hn : (ρ.store n).builds.lookup b.name = none)
      (hb : (ρ.store (n + 1)).builds = (ρ.store n).builds.insert b.name b)
      (hv : (ρ.store (n + 1)).versions = b :: (ρ.store n).versions)
      (ht : (ρ.store (n + 1)).clock = (ρ.store n).clock + 1)
  | revise (current b : KovaBuild) (hr : Revision ρ n current b)
      (hl : (ρ.store n).builds.lookup b.name = some current)
      (hf : b.deletionTimestamp.isSome → b.finalizers ≠ [])
      (hb : (ρ.store (n + 1)).builds = (ρ.store n).builds.insert b.name b)
      (hv : (ρ.store (n + 1)).versions = b :: (ρ.store n).versions)
      (ht : (ρ.store (n + 1)).clock = (ρ.store n).clock + 1)

/-- The parts of a build no revision touches. -/
structure SameBuild (b b' : KovaBuild) : Prop where
  uid : b'.uid = b.uid
  name : b'.name = b.name
  spec : b'.spec = b.spec
  inert : b'.inertTombstone = b.inertTombstone

theorem SameBuild.trans {a c : KovaBuild} (h : SameBuild a b) (h' : SameBuild b c) :
    SameBuild a c :=
  ⟨h'.uid.trans h.uid, h'.name.trans h.name, h'.spec.trans h.spec, h'.inert.trans h.inert⟩

theorem SameBuild.symm {a : KovaBuild} (h : SameBuild a b) : SameBuild b a :=
  ⟨h.uid.symm, h.name.symm, h.spec.symm, h.inert.symm⟩

theorem Edits.same {q : Request} {change : KovaBuild → KovaBuild} (h : Edits q b change) :
    SameBuild current (change current) := by
  cases h <;> exact ⟨rfl, rfl, rfl, rfl⟩

variable {ρ} {n : Nat}

theorem Revision.same (h : Revision ρ n current b) : SameBuild current b := by
  cases h with
  | @edit q b change hq he hu hr =>
    have hs : SameBuild current (change current) := he.same
    exact ⟨hs.uid, hs.name, hs.spec, hs.inert⟩
  | cancel | delete => exact ⟨rfl, rfl, rfl, rfl⟩

theorem Revision.version (h : Revision ρ n current b) :
    b.resourceVersion = (ρ.store n).clock + 1 := by
  cases h <;> rfl

variable (ρ)

theorem buildStep_settle (hs : ρ.store (n + 1) = ((ρ.store n).settleBuild b).1)
    (hl : (ρ.store n).builds.lookup b.name = some current)
    (hr : Revision ρ n current { b with resourceVersion := (ρ.store n).clock + 1 }) :
    BuildStep ρ n := by
  unfold Cluster.settleBuild at hs
  split at hs
  · exact .erase b.name (by rw [hs]) (by rw [hs])
  · next hc =>
    refine .revise current _ hr hl (fun hd he => hc ?_) (by rw [hs]; rfl) (by rw [hs]; rfl)
      (by rw [hs]; rfl)
    simp_all

theorem buildStep_delete {now : Time} (hs : ρ.store (n + 1) = (ρ.store n).beginDelete current now)
    (hl : (ρ.store n).builds.lookup current.name = some current) : BuildStep ρ n := by
  unfold Cluster.beginDelete at hs
  split at hs
  · exact .erase current.name (by rw [hs]) (by rw [hs])
  · next hf =>
    split at hs
    · exact .keep (by rw [hs]) (by rw [hs])
    · exact .revise current _ .delete hl (fun _ => by simpa using hf) (by rw [hs]; rfl)
        (by rw [hs]; rfl) (by rw [hs]; rfl)

theorem buildStep_create {uid : UID} {now : Time} (hu : uid ≠ "") (hf : uid ∉ (ρ.store n).uids)
    (hn : (ρ.store n).builds.lookup b.name = none)
    (hs : ρ.store (n + 1) = ((ρ.store n).createBuild b uid now).1)
    (hc : unlinked b ∨ ρ.acts n (.createBuild b)) : BuildStep ρ n := by
  unfold Cluster.createBuild at hs
  rw [hn] at hs
  simp only [Option.isSome_none, Bool.false_eq_true, if_false, Cluster.storeBuild] at hs
  refine .create { b with
      uid := uid, generation := 1, creationTimestamp := now, deletionTimestamp := none
      status := {}, resourceVersion := (ρ.store n).clock + 1 }
    ⟨hu, hf, ?_, rfl, rfl, rfl, ?_⟩ hn (by rw [hs]) (by rw [hs]) (by rw [hs])
  · rw [hs]
    exact Finset.mem_insert_self uid _
  · exact hc.imp_right fun ha => ⟨b, ha, rfl, rfl, rfl⟩

theorem buildStep_of_named (h : ∀ name b, (ρ.store n).builds.lookup name = some b → b.name = name) :
    BuildStep ρ n := by
  rcases store_succ ρ n with hs | ⟨q, hq, ha⟩ | ⟨e, -, ha⟩
  · exact .keep (by rw [hs]) (by rw [hs])
  · by_cases hp : part q = .builds
    · generalize hs : ρ.store (n + 1) = s' at ha
      cases ha with
      | nothing => exact .keep (by rw [hs]) (by rw [hs])
      | createBuild hu hf hn => exact buildStep_create ρ hu hf hn hs (.inr hq)
      | @editBuild _ b change current he hl hu hr hne =>
        refine buildStep_settle ρ hs ?_ (.edit hq he hu hr)
        rw [he.same.name, h _ _ hl]
        exact hl
      | deleteBuild hl hu =>
        refine buildStep_delete ρ hs ?_
        rwa [h _ _ hl]
      | _ => cases hp
    · exact .keep (ha.frame.builds hp).1 (ha.frame.builds hp).2
  · generalize hs : ρ.store (n + 1) = s' at ha
    have hframe := ha.frame
    cases ha with
    | createBuild hu hf hb hn => exact buildStep_create ρ hu hf hn hs (.inl hb)
    | deleteBuild hl =>
      refine buildStep_delete ρ hs ?_
      rwa [h _ _ hl]
    | @cancelBuild name text current hl ht hc =>
      have hr : Revision ρ n current { current with
          annotations := { current.annotations with cancellationRequestedAt := text }
          resourceVersion := (ρ.store n).clock + 1 } := .cancel ht hc
      refine buildStep_settle ρ hs ?_ hr
      rwa [h _ _ hl]
    | _ =>
      have hb := hframe.builds (by simp [envPart])
      exact .keep (by rw [hs, hb.1]) (by rw [hs, hb.2])

structure Versions (s : Cluster) : Prop where
  current : ∀ name b, s.builds.lookup name = some b → b ∈ s.versions ∧ b.name = name
  bound : ∀ b ∈ s.versions, b.resourceVersion ≤ s.clock
  version_inj : ∀ b ∈ s.versions, ∀ b' ∈ s.versions,
    b.resourceVersion = b'.resourceVersion → b = b'
  uid : ∀ b ∈ s.versions, b.uid ≠ "" ∧ b.uid ∈ s.uids
  same : ∀ b ∈ s.versions, ∀ b' ∈ s.versions, b.uid = b'.uid → SameBuild b b'
  newest : ∀ name b, s.builds.lookup name = some b → ∀ b' ∈ s.versions, b'.uid = b.uid →
    b'.resourceVersion ≤ b.resourceVersion

namespace Versions

variable {ρ} {n : Nat}

theorem of_keep (h : Versions (ρ.store n))
    (hb : ∀ name b, (ρ.store (n + 1)).builds.lookup name = some b →
      (ρ.store n).builds.lookup name = some b)
    (hv : (ρ.store (n + 1)).versions = (ρ.store n).versions) : Versions (ρ.store (n + 1)) := by
  have hc := clock_mono ρ (Nat.le_succ n)
  have hu := uids_mono ρ (Nat.le_succ n)
  constructor
  · intro name b hl
    rw [hv]
    exact h.current name b (hb name b hl)
  · intro b hmem
    rw [hv] at hmem
    exact (h.bound b hmem).trans hc
  · rw [hv]
    exact h.version_inj
  · intro b hmem
    rw [hv] at hmem
    exact ⟨(h.uid b hmem).1, hu (h.uid b hmem).2⟩
  · rw [hv]
    exact h.same
  · intro name b hl
    rw [hv]
    exact h.newest name b (hb name b hl)

/-- A new version gets a number no version had before. -/
theorem of_store (h : Versions (ρ.store n))
    (hb : (ρ.store (n + 1)).builds = (ρ.store n).builds.insert b.name b)
    (hv : (ρ.store (n + 1)).versions = b :: (ρ.store n).versions)
    (ht : (ρ.store (n + 1)).clock = (ρ.store n).clock + 1)
    (hr : b.resourceVersion = (ρ.store n).clock + 1)
    (hu : b.uid ≠ "" ∧ b.uid ∈ (ρ.store (n + 1)).uids)
    (hs : ∀ b' ∈ (ρ.store n).versions, b'.uid = b.uid → SameBuild b' b) :
    Versions (ρ.store (n + 1)) := by
  have hlt : ∀ b' ∈ (ρ.store n).versions, b'.resourceVersion < b.resourceVersion := by
    intro b' hb'
    have := h.bound b' hb'
    omega
  have hlookup : ∀ name c, (ρ.store (n + 1)).builds.lookup name = some c →
      name = b.name ∧ c = b ∨ name ≠ b.name ∧ (ρ.store n).builds.lookup name = some c :=
    fun name c hc => lookup_insert_cases (hb ▸ hc)
  constructor
  · intro name c hc
    rw [hv]
    rcases hlookup name c hc with ⟨rfl, rfl⟩ | ⟨-, hc⟩
    · exact ⟨List.mem_cons_self, rfl⟩
    · exact ⟨List.mem_cons_of_mem _ (h.current name c hc).1, (h.current name c hc).2⟩
  · intro c hc
    rw [hv] at hc
    rcases List.mem_cons.mp hc with rfl | hc
    · omega
    · have := h.bound c hc
      omega
  · intro c hc c' hc' he
    rw [hv] at hc hc'
    rcases List.mem_cons.mp hc with rfl | h1 <;> rcases List.mem_cons.mp hc' with rfl | h2
    · rfl
    · exact absurd he (hlt c' h2).ne'
    · exact absurd he (hlt c h1).ne
    · exact h.version_inj c h1 c' h2 he
  · intro c hc
    rw [hv] at hc
    rcases List.mem_cons.mp hc with rfl | hc
    · exact hu
    · exact ⟨(h.uid c hc).1, uids_mono ρ (Nat.le_succ n) (h.uid c hc).2⟩
  · intro c hc c' hc' he
    rw [hv] at hc hc'
    rcases List.mem_cons.mp hc with rfl | h1 <;> rcases List.mem_cons.mp hc' with rfl | h2
    · exact ⟨rfl, rfl, rfl, rfl⟩
    · exact (hs c' h2 he.symm).symm
    · exact hs c h1 he
    · exact h.same c h1 c' h2 he
  · intro name c hc c' hc' he
    rw [hv] at hc'
    rcases hlookup name c hc with ⟨rfl, rfl⟩ | ⟨hne, hc⟩ <;>
      rcases List.mem_cons.mp hc' with rfl | hc'
    · exact le_rfl
    · exact (hlt c' hc').le
    · -- two names cannot hold one UID
      have hmem := h.current name c hc
      have := (hs c hmem.1 he.symm).name
      exact absurd (hmem.2.symm.trans this.symm) hne
    · exact h.newest name c hc c' hc' he

end Versions

theorem versions_ok (n : Nat) : Versions (ρ.store n) := by
  induction n with
  | zero => constructor <;> simp [Run.store, ρ.zero, Semantics.start, World.initial]
  | succ n ih =>
    cases buildStep_of_named ρ fun name b hl => (ih.current name b hl).2 with
    | keep hb hv => exact ih.of_keep (fun name b hl => by rwa [hb] at hl) hv
    | erase name hb hv =>
      refine ih.of_keep (fun name' b hl => ?_) hv
      rw [hb] at hl
      exact (lookup_of_erase hl).2
    | create b hc hn hb hv ht =>
      refine ih.of_store hb hv ht hc.version ⟨hc.uid_ne, hc.known⟩ fun b' hb' he => ?_
      exact absurd (he ▸ (ih.uid b' hb').2) hc.fresh
    | revise current b hr hl hf hb hv ht =>
      have hcur := ih.current b.name current hl
      have hsame := hr.same
      refine ih.of_store hb hv ht hr.version ?_ fun b' hb' he => ?_
      · rw [hsame.uid]
        exact ⟨(ih.uid current hcur.1).1, uids_mono ρ (Nat.le_succ n) (ih.uid current hcur.1).2⟩
      · exact (ih.same b' hb' current hcur.1 (he.trans hsame.uid)).trans hsame

theorem buildStep (n : Nat) : BuildStep ρ n :=
  buildStep_of_named ρ fun name b hl => ((versions_ok ρ n).current name b hl).2

/-- A build that is being deleted and still stored waits for a finalizer. -/
theorem deleting_finalizers {name : String} (h : (ρ.store n).builds.lookup name = some b)
    (hd : b.deletionTimestamp.isSome) :
    b.finalizers ≠ [] := by
  induction n generalizing name with
  | zero => simp [Run.store, ρ.zero, Semantics.start, World.initial] at h
  | succ n ih =>
    cases buildStep ρ n with
    | keep hb hv => exact ih (hb ▸ h)
    | erase name' hb hv => exact ih (lookup_of_erase (hb ▸ h)).2
    | create b' hc hn hb hv ht =>
      rcases lookup_insert_cases (hb ▸ h) with ⟨-, rfl⟩ | ⟨-, hold⟩
      · rw [hc.deletion] at hd
        cases hd
      · exact ih hold
    | revise current b' hr hl hf hb hv ht =>
      rcases lookup_insert_cases (hb ▸ h) with ⟨-, rfl⟩ | ⟨-, hold⟩
      · exact hf hd
      · exact ih hold

theorem versions_succ (n : Nat) : (ρ.store n).versions ⊆ (ρ.store (n + 1)).versions := by
  cases buildStep ρ n with
  | keep _ hv | erase _ _ hv => rw [hv]; exact List.Subset.refl _
  | create _ _ _ _ hv | revise _ _ _ _ _ _ hv => rw [hv]; exact List.subset_cons_self _ _

theorem versions_mono {m : Nat} (h : m ≤ n) : (ρ.store m).versions ⊆ (ρ.store n).versions := by
  induction h with
  | refl => exact List.Subset.refl _
  | step _ ih => exact fun b hb => versions_succ ρ _ (ih hb)

variable {P : KovaBuild → Prop} {b₀ : KovaBuild}

/-- What every revision from instant `k` on keeps, and the versions since `b₀` had at `k`, all later
versions have. -/
theorem revisions_preserve {k : Nat} (h₀ : b₀ ∈ (ρ.store k).versions)
    (base : ∀ b ∈ (ρ.store k).versions, b.uid = b₀.uid →
      b₀.resourceVersion ≤ b.resourceVersion → P b)
    (step : ∀ n current b, k ≤ n → Revision ρ n current b → current ∈ (ρ.store n).versions →
      current.uid = b₀.uid → P current → P b)
    (hn : k ≤ n) : ∀ b ∈ (ρ.store n).versions, b.uid = b₀.uid →
      b₀.resourceVersion ≤ b.resourceVersion → P b := by
  induction hn with
  | refl => exact base
  | @step n hn ih =>
    intro b hb hu hr
    have hold := versions_ok ρ n
    cases buildStep ρ n with
    | keep _ hv | erase _ _ hv => exact ih b (hv ▸ hb) hu hr
    | create b' hc _ _ hv _ =>
      rw [hv] at hb
      rcases List.mem_cons.mp hb with rfl | hb
      · exact absurd (hu ▸ (hold.uid b₀ (versions_mono ρ hn h₀)).2) hc.fresh
      · exact ih b hb hu hr
    | revise current b' hrev hl _ _ hv _ =>
      rw [hv] at hb
      rcases List.mem_cons.mp hb with rfl | hb
      · -- the version that is replaced is the newest one, so it is not older than `b₀`
        have hcur := (hold.current _ _ hl).1
        have huc : current.uid = b₀.uid := hrev.same.uid.symm.trans hu
        have hle := hold.newest _ _ hl b₀ (versions_mono ρ hn h₀) huc.symm
        exact step n current b hn hrev hcur huc (ih current hcur huc hle)
      · exact ih b hb hu hr

theorem version_stored (h : b ∈ (ρ.store n).versions) :
    ∃ k, k ≤ n ∧ b ∈ (ρ.store k).versions ∧ b.resourceVersion = (ρ.store k).clock := by
  induction n with
  | zero => simp [Run.store, ρ.zero, Semantics.start, World.initial] at h
  | succ n ih =>
    have old : b ∈ (ρ.store n).versions →
        ∃ k, k ≤ n + 1 ∧ b ∈ (ρ.store k).versions ∧ b.resourceVersion = (ρ.store k).clock := by
      intro hb
      obtain ⟨k, hk, hrest⟩ := ih hb
      exact ⟨k, Nat.le_succ_of_le hk, hrest⟩
    cases buildStep ρ n with
    | keep _ hv | erase _ _ hv => exact old (hv ▸ h)
    | create b' hc _ _ hv ht =>
      rcases List.mem_cons.mp (hv ▸ h) with rfl | hb
      · exact ⟨n + 1, le_rfl, h, by rw [hc.version, ht]⟩
      · exact old hb
    | revise current b' hrev hl _ _ hv ht =>
      rcases List.mem_cons.mp (hv ▸ h) with rfl | hb
      · exact ⟨n + 1, le_rfl, h, by rw [hrev.version, ht]⟩
      · exact old hb

/-- What every revision keeps, all versions after one that has it have. -/
theorem later_versions
    (step : ∀ n current b, Revision ρ n current b → current ∈ (ρ.store n).versions →
      P current → P b)
    {m : Nat} (h₀ : b₀ ∈ (ρ.store m).versions) (hP : P b₀)
    (hb : b ∈ (ρ.store n).versions) (hu : b.uid = b₀.uid)
    (hr : b₀.resourceVersion ≤ b.resourceVersion) : P b := by
  obtain ⟨k, hk, hmem, hclock⟩ := version_stored ρ h₀
  have hlarge : b ∈ (ρ.store (max k n)).versions := versions_mono ρ (le_max_right k n) hb
  refine revisions_preserve ρ hmem (fun c hc huc hrc => ?_)
    (fun n current c _ hrev hcur _ => step n current c hrev hcur) (le_max_left k n) b hlarge hu hr
  have hbound := (versions_ok ρ k).bound c hc
  have heq : c.resourceVersion = b₀.resourceVersion := by omega
  rw [(versions_ok ρ k).version_inj c hc b₀ hmem heq]
  exact hP

end KovaService.System
