import KovaService.Drain.Program
import KovaService.Lib.Triple

/-!
Any number of drain runs of one epoch over one API.

Every request acts on the cluster at one instant.  A name holds at most one object, so a Create of a
taken name fails, and it is put on the wire once: it may arrive late, and its sender may be told
nothing.  Everyone else may create, change and delete objects at any time, except that an object with
the recovery finalizer stays, with its UID and the finalizer.
-/

namespace KovaService.Drain

open Api Lib

structure Cluster where
  namespaces : Finmap fun _ : String => Namespace
  configMaps : Finmap fun _ : Key => ConfigMap
  builds : Finmap fun _ : Key => KovaBuild
  pods : Finmap fun _ : Key => Pod

/-- What the API decides for one request: to fail it, or the object it makes of a proposed one and
the order of a list. -/
structure Choice where
  failure : Option ApiErr := none
  configMap : ConfigMap → ConfigMap := id
  build : KovaBuild → KovaBuild := id
  pod : Pod → Pod := id
  items : List ConfigMap := []

inductive Event where
  | putNamespace (name : String) (o : Option Namespace)
  | putConfigMap (key : Key) (o : Option ConfigMap)
  | putBuild (key : Key) (o : Option KovaBuild)
  | putPod (key : Key) (o : Option Pod)

def notFound : ApiErr := { notFound := true, text := "not found" }

def alreadyExists : ApiErr := { notFound := false, text := "already exists" }

def conflict : ApiErr := { notFound := false, text := "conflict" }

def lostResponse : ApiErr := { notFound := false, text := "response lost" }

def orNotFound {α : Type} : Option α → Except ApiErr α
  | some a => .ok a
  | none => .error notFound

def ObjectMeta.completed (proposed stored : ObjectMeta) : ObjectMeta :=
  { stored with
    namespaceName := proposed.namespaceName, name := proposed.name
    finalizers := proposed.finalizers }

def Choice.storeConfigMap (c : Choice) (cm : ConfigMap) : ConfigMap :=
  { c.configMap cm with metadata := cm.metadata.completed (c.configMap cm).metadata }

def Choice.storeBuild (c : Choice) (b : KovaBuild) : KovaBuild :=
  { c.build b with metadata := b.metadata.completed (c.build b).metadata }

def Choice.storePod (c : Choice) (p : Pod) : Pod :=
  { c.pod p with metadata := p.metadata.completed (c.pod p).metadata }

def sameVersion (stored proposed : ObjectMeta) : Bool :=
  stored.uid == proposed.uid && stored.resourceVersion == proposed.resourceVersion

def Cluster.inNamespace (s : Cluster) (name : String) : Multiset ConfigMap :=
  (s.configMaps.entries.map (·.2)).filter fun cm => cm.metadata.namespaceName = name

def Cluster.page (s : Cluster) (name : String) (limit : Nat) (items : List ConfigMap) :
    Option ConfigMapList :=
  if (s.inNamespace name).card ≤ limit then
    if (items : Multiset ConfigMap) = s.inNamespace name then some { items := items } else none
  else if items.length = limit ∧ (items : Multiset ConfigMap) ≤ s.inNamespace name then
    some { items := items, continue_ := "more" }
  else none

def Cluster.reply (s : Cluster) (c : Choice) : (q : Request) → Option (Cluster × Answer q)
  | .getNamespace name => some (s, orNotFound (s.namespaces.lookup name))
  | .getConfigMap key => some (s, orNotFound (s.configMaps.lookup key))
  | .listConfigMaps name limit => (s.page name limit c.items).map fun l => (s, .ok l)
  | .getBuild key => some (s, orNotFound (s.builds.lookup key))
  | .getPod key => some (s, orNotFound (s.pods.lookup key))
  | .createConfigMap cm =>
    match s.configMaps.lookup cm.metadata.key with
    | some _ => some (s, .error alreadyExists)
    | none =>
      let stored := c.storeConfigMap cm
      some ({ s with configMaps := s.configMaps.insert cm.metadata.key stored }, .ok stored)
  | .createBuild b =>
    match s.builds.lookup b.metadata.key with
    | some _ => some (s, .error alreadyExists)
    | none =>
      let stored := c.storeBuild b
      some ({ s with builds := s.builds.insert b.metadata.key stored }, .ok stored)
  | .createPod p =>
    match s.pods.lookup p.metadata.key with
    | some _ => some (s, .error alreadyExists)
    | none =>
      let stored := c.storePod p
      some ({ s with pods := s.pods.insert p.metadata.key stored }, .ok stored)
  | .updateBuild b =>
    match s.builds.lookup b.metadata.key with
    | none => some (s, .error notFound)
    | some old =>
      if sameVersion old.metadata b.metadata then
        let stored := c.storeBuild b
        some ({ s with builds := s.builds.insert b.metadata.key stored }, .ok stored)
      else some (s, .error conflict)
  | .updatePod p =>
    match s.pods.lookup p.metadata.key with
    | none => some (s, .error notFound)
    | some old =>
      if sameVersion old.metadata p.metadata then
        let stored := c.storePod p
        some ({ s with pods := s.pods.insert p.metadata.key stored }, .ok stored)
      else some (s, .error conflict)
  | .returned .. => some (s, ())

def failed (e : ApiErr) : (q : Request) → Option (Answer q)
  | .getNamespace _ | .getConfigMap _ | .listConfigMaps .. | .getBuild _ | .getPod _
  | .createConfigMap _ | .createBuild _ | .createPod _ | .updateBuild _ | .updatePod _ =>
    some (.error e)
  | .returned .. => none

def replyOrFail (s : Cluster) (q : Request) (c : Choice) : Option (Cluster × Answer q) :=
  match c.failure with
  | some e => (failed e q).map fun r => (s, r)
  | none => s.reply c q

/-- An object with the recovery finalizer is not taken away. -/
def keepsHold (old new : Option ObjectMeta) : Bool :=
  match old with
  | none => true
  | some m => !m.held || match new with
    | none => false
    | some m' => m'.held && m'.uid == m.uid

def put {κ α : Type} [DecidableEq κ] (m : Finmap fun _ : κ => α) (k : κ) :
    Option α → Finmap fun _ : κ => α
  | some a => m.insert k a
  | none => m.erase k

def Cluster.disturb (s : Cluster) : Event → Option Cluster
  | .putNamespace name o => some { s with namespaces := put s.namespaces name o }
  | .putConfigMap key o =>
    if keepsHold ((s.configMaps.lookup key).map (·.metadata)) (o.map (·.metadata)) then
      some { s with configMaps := put s.configMaps key o }
    else none
  | .putBuild key o =>
    if keepsHold ((s.builds.lookup key).map (·.metadata)) (o.map (·.metadata)) then
      some { s with builds := put s.builds key o }
    else none
  | .putPod key o =>
    if keepsHold ((s.pods.lookup key).map (·.metadata)) (o.map (·.metadata)) then
      some { s with pods := put s.pods key o }
    else none

def Request.wired : Request → Bool
  | .createConfigMap _ | .createBuild _ | .createPod _ | .updateBuild _ | .updatePod _ => true
  | _ => false

abbrev EpochInput (epoch : EpochIdentity) : Type := { i : Input // i.expected.epoch = epoch }

def drains (T : Tools) (epoch : EpochIdentity) :
    Semantics Request Answer Cluster Choice Event (EpochInput epoch) where
  wired := Request.wired
  repeatable := fun _ => false
  reply := replyOrFail
  lost := fun q _ => failed lostResponse q
  env := Cluster.disturb
  job := fun i => do
    let r ← drain T i.1
    Prog.perform (Request.returned i.1 r.1 r.2)

def Cluster.heldAt (s : Cluster) (key : Key) : Prop :=
  ∃ cm, s.configMaps.lookup key = some cm ∧ cm.metadata.held

theorem keepsHold_some {m : ObjectMeta} {new : Option ObjectMeta} (h : keepsHold (some m) new)
    (hm : m.held) : ∃ m', new = some m' ∧ m'.held := by
  cases new with
  | none => simp [keepsHold, hm] at h
  | some m' =>
    simp only [keepsHold, hm, Bool.not_true, Bool.false_or, Bool.and_eq_true] at h
    exact ⟨m', rfl, h.1⟩

variable {key : Key} {cm : ConfigMap} {s : Cluster}

theorem heldAt_insert {key' : Key} (h : s.heldAt key) (hcm : s.configMaps.lookup key' = none) :
    ({ s with configMaps := s.configMaps.insert key' cm } : Cluster).heldAt key := by
  obtain ⟨old, hold, hheld⟩ := h
  have hne : key ≠ key' := by
    rintro rfl
    rw [hcm] at hold
    cases hold
  exact ⟨old, by rw [Finmap.lookup_insert_of_ne _ hne, hold], hheld⟩

theorem heldAt_reply {s' : Cluster} {c : Choice} {q : Request} {r : Answer q} (h : s.heldAt key)
    (hr : replyOrFail s q c = some (s', r)) : s'.heldAt key := by
  unfold replyOrFail at hr
  split at hr
  · obtain ⟨r', -, he⟩ := Option.map_eq_some_iff.mp hr
    cases he
    exact h
  · cases q with
    | createConfigMap cm =>
      simp only [Cluster.reply] at hr
      split at hr
      · cases hr
        exact h
      · next hcm =>
        cases hr
        exact heldAt_insert h hcm
    | listConfigMaps name limit =>
      obtain ⟨l, -, he⟩ := Option.map_eq_some_iff.mp hr
      cases he
      exact h
    | createBuild b =>
      simp only [Cluster.reply] at hr
      split at hr <;> cases hr <;> exact h
    | createPod p =>
      simp only [Cluster.reply] at hr
      split at hr <;> cases hr <;> exact h
    | updateBuild b =>
      simp only [Cluster.reply] at hr
      split at hr
      · cases hr; exact h
      · split at hr <;> cases hr <;> exact h
    | updatePod p =>
      simp only [Cluster.reply] at hr
      split at hr
      · cases hr; exact h
      · split at hr <;> cases hr <;> exact h
    | _ =>
      cases hr
      exact h

theorem created_reply {s' : Cluster} {c : Choice} {created : ConfigMap}
    (hr : replyOrFail s (.createConfigMap cm) c = some (s', .ok created)) :
    s.configMaps.lookup cm.metadata.key = none ∧
      s'.configMaps.lookup cm.metadata.key = some created ∧
      created.metadata.finalizers = cm.metadata.finalizers := by
  unfold replyOrFail at hr
  split at hr
  · obtain ⟨r', hf, he⟩ := Option.map_eq_some_iff.mp hr
    cases hf
    cases he
  · simp only [Cluster.reply] at hr
    split at hr
    · cases hr
    · next hnone =>
      cases hr
      exact ⟨hnone, Finmap.lookup_insert _, rfl⟩

theorem heldAt_disturb {s' : Cluster} {e : Event} (h : s.heldAt key) (he : s.disturb e = some s') :
    s'.heldAt key := by
  cases e with
  | putConfigMap key' o =>
    simp only [Cluster.disturb] at he
    split at he
    · next hk =>
      cases he
      obtain ⟨old, hold, hheld⟩ := h
      by_cases hkey : key = key'
      · subst hkey
        rw [hold] at hk
        obtain ⟨m', hm', hheld'⟩ := keepsHold_some hk hheld
        obtain ⟨cm, rfl, rfl⟩ := Option.map_eq_some_iff.mp hm'
        exact ⟨cm, Finmap.lookup_insert _, hheld'⟩
      · refine ⟨old, ?_, hheld⟩
        cases o with
        | none => exact (Finmap.lookup_erase_ne hkey).trans hold
        | some cm => exact (Finmap.lookup_insert_of_ne _ hkey).trans hold
    · cases he
  | putNamespace name o =>
    cases he
    exact h
  | putBuild key' o =>
    simp only [Cluster.disturb] at he
    split at he
    · cases he; exact h
    · cases he
  | putPod key' o =>
    simp only [Cluster.disturb] at he
    split at he
    · cases he; exact h
    · cases he

variable {T : Tools} {epoch : EpochIdentity} {s₀ : Cluster} {ρ : Run (drains T epoch) s₀}

theorem heldAt_succ {n : Nat} (h : (ρ.store n).heldAt key) : (ρ.store (n + 1)).heldAt key := by
  cases ρ.storeStep n with
  | same he =>
    rw [Run.store, he]
    exact h
  | env e _ he => exact heldAt_disturb h he
  | read t q c r _ _ hr => exact heldAt_reply h hr
  | effect id q c r he => exact heldAt_reply h he.2.1

theorem heldAt_mono {n m : Nat} (h : (ρ.store n).heldAt key) (hnm : n ≤ m) :
    (ρ.store m).heldAt key := by
  induction hnm with
  | refl => exact h
  | step _ ih => exact heldAt_succ ih

/-- A Create that was answered with an object found the name free, and left the object there. -/
theorem created_effect {n t : Nat} {created : ConfigMap}
    (h : ρ.gets n t (.createConfigMap cm) (.ok created)) :
    (ρ.store n).configMaps.lookup cm.metadata.key = none ∧
      (ρ.store (n + 1)).configMaps.lookup cm.metadata.key = some created ∧
      created.metadata.finalizers = cm.metadata.finalizers := by
  rcases h.effect rfl with ⟨id, c, -, hr, -⟩ | ⟨c, hl⟩
  · exact created_reply hr
  · cases hl

/-- Only one Create of a held record is answered with an object. -/
theorem created_unique {n n' t t' : Nat} {cm' created created' : ConfigMap}
    (h : ρ.gets n t (.createConfigMap cm) (.ok created))
    (h' : ρ.gets n' t' (.createConfigMap cm') (.ok created'))
    (hkey : cm.metadata.key = cm'.metadata.key) (hheld : cm.metadata.held)
    (hheld' : cm'.metadata.held) : n = n' := by
  have later : ∀ {n n' t t' : Nat} {cm cm' created created' : ConfigMap},
      ρ.gets n t (.createConfigMap cm) (.ok created) →
      ρ.gets n' t' (.createConfigMap cm') (.ok created') →
      cm.metadata.key = cm'.metadata.key → cm.metadata.held → ¬ n < n' := by
    intro n n' t t' cm cm' created created' h h' hkey hheld hlt
    obtain ⟨-, hstored, hfin⟩ := created_effect h
    obtain ⟨hfree, -⟩ := created_effect h'
    have hat : (ρ.store (n + 1)).heldAt cm.metadata.key :=
      ⟨created, hstored, by rw [ObjectMeta.held, hfin]; exact hheld⟩
    obtain ⟨cm'', hcm'', -⟩ := heldAt_mono hat hlt
    rw [hkey, hfree] at hcm''
    cases hcm''
  have h1 := later h h' hkey hheld
  have h2 := later h' h hkey.symm hheld'
  omega

end KovaService.Drain
