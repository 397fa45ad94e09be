import Mathlib.Data.String.Basic
import KovaService.Drain.Links
import KovaService.Lib.Trace

/-!
The inventory of a drain: what the preflight asks for, and what is known when it lets the drain go
on.

Every receipt is then one intent's, and every intent one target's.  That a Pod attempt links the grant
of its own build is checked by name only where the code looks the receipt up: the link is compared
with the signed receipt that it names itself.
-/

namespace KovaService.Drain

open Api Ledger Lib

def distant : Request → Bool
  | .getNamespace _ | .getConfigMap _ | .listConfigMaps .. => true
  | _ => false

variable {α : Type} {T : Tools} {i : Input} {targets : List Target}

abbrev Distant (p : D α) (Post : α → Prop) : Prop :=
  Fallible.Ensures (fun _ _ => True) (fun q => distant q) p Post

theorem distant_ask {q : Request} (hq : distant q) : Distant (ask q) fun _ => True :=
  ⟨hq, fun _ _ _ _ => trivial⟩

theorem distant_failIf {c : Bool} {e : String} : Distant (Fallible.failIf c e) fun _ => True :=
  Fallible.ensures_failIf fun _ => trivial

theorem distant_ofExcept (r : Except String α) : Distant (ofExcept r) fun a => r = .ok a := by
  cases r with
  | ok a => exact Fallible.ensures_pure rfl
  | error e => exact Fallible.ensures_throw e

theorem qualifyStop_distant (T : Tools) (exp : Expectation) :
    Distant (qualifyStopAndNamespace T exp) fun _ => True := by
  refine (distant_ask rfl).bind fun ns _ => ?_
  refine distant_failIf.bind fun _ _ => ?_
  refine (distant_ask rfl).bind fun receipts _ => ?_
  refine distant_failIf.bind fun _ _ => ?_
  refine (distant_ask rfl).bind fun r _ => ?_
  cases r with
  | error e => exact Fallible.ensures_throw _
  | ok stop => exact distant_failIf

theorem readReceipt_distant (provided : List (String × ReceiptData)) (ref : ReceiptRef) :
    Distant (readReceipt T provided ref) fun _ => True := by
  refine (distant_ask rfl).bind fun r _ => ?_
  cases r with
  | error e => exact Fallible.ensures_throw _
  | ok cm =>
    dsimp only
    split
    · exact Fallible.ensures_throw _
    · exact (distant_ofExcept _).bind fun _ _ => distant_failIf

theorem readReceipts_distant (provided : List (String × ReceiptData)) (refs : List ReceiptRef) :
    Distant (refs.forM (readReceipt T provided)) fun _ => True := by
  induction refs with
  | nil => exact Fallible.ensures_pure trivial
  | cons ref refs ih => exact (readReceipt_distant provided ref).bind fun _ _ => ih

/-- The inventory is complete: every receipt has its intent, and the intents are linked. -/
structure Qualified (T : Tools) (i : Input) (targets : List Target) : Prop where
  valid : ∀ d ∈ i.intents, d.valid T.ext
  distinct : (i.intents.map receiptDataKey).Nodup
  signed : ∀ ref ∈ i.expected.receipts, ∃ d ∈ i.intents, receiptDataKey d = refKey ref.kind ref.name
  linked : linkTargets i = .ok targets

variable {provided : List (String × ReceiptData)}

theorem provideAll_provides (h : provideAll T i = .ok provided) :
    provided = i.intents.map (fun d => (receiptDataKey d, d)) ∧
      (i.intents.map receiptDataKey).Nodup ∧ ∀ d ∈ i.intents, d.valid T.ext := by
  refine foldlM_invariant (fun ds l => l = ds.map (fun d => (receiptDataKey d, d)) ∧
    (ds.map receiptDataKey).Nodup ∧ ∀ d ∈ ds, d.valid T.ext) ?_ (by simp) h
  rintro ds d _ l' ⟨rfl, hn, hv⟩ hd
  unfold provide newReceiptConfigMap at hd
  split_ifs at hd with hvalid
  · simp only at hd
    split_ifs at hd with hc
    cases hd
    simp only [Bool.or_eq_true, not_or, Option.isSome_iff_ne_none, ne_eq, not_not,
      List.lookup_eq_none_iff] at hc
    refine ⟨by simp, ?_, forall_snoc hv hvalid⟩
    rw [List.map_append, List.nodup_append]
    refine ⟨hn, by simp, ?_⟩
    rintro a ha _ hb rfl
    obtain ⟨d', hd', rfl⟩ := List.mem_map.mp ha
    have hkey : receiptDataKey d' = receiptDataKey d := by simpa using hb
    have := hc.2 _ (List.mem_map_of_mem hd')
    simp [hkey] at this

theorem signedRefs_intent {refs : Finmap fun _ : String => ReceiptRef}
    (hp : provideAll T i = .ok provided)
    (hs : signedRefs i.expected provided = .ok refs) :
    ∀ ref ∈ i.expected.receipts, ∃ d ∈ i.intents,
      receiptDataKey d = refKey ref.kind ref.name := by
  refine foldlM_invariant (fun rs _ => ∀ ref ∈ rs, ∃ d ∈ i.intents,
    receiptDataKey d = refKey ref.kind ref.name) ?_ (by simp) hs
  intro rs ref m m' hm hstep
  split_ifs at hstep with hfound
  refine forall_snoc hm ?_
  obtain ⟨d, hd⟩ := Option.isSome_iff_exists.mp hfound
  obtain ⟨front, rest, hl, -⟩ := List.lookup_eq_some_iff.mp hd
  have hmem : (refKey ref.kind ref.name, d) ∈ provided := by simp [hl]
  rw [(provideAll_provides hp).1] at hmem
  obtain ⟨d', hd', he⟩ := List.mem_map.mp hmem
  exact ⟨d', hd', (Prod.mk.inj he).1⟩

theorem qualifyInventory_distant (T : Tools) (i : Input) :
    Distant (qualifyInventory T i) (Qualified T i) := by
  refine (distant_ofExcept _).bind fun provided hp => ?_
  refine distant_failIf.bind fun _ _ => ?_
  refine (distant_ofExcept _).bind fun refs hs => ?_
  refine (distant_ask rfl).bind fun r _ => ?_
  cases r with
  | error e => exact Fallible.ensures_throw _
  | ok all =>
    refine distant_failIf.bind fun _ _ => ?_
    refine (distant_ofExcept _).bind fun seen _ => ?_
    refine distant_failIf.bind fun _ _ => ?_
    refine (readReceipts_distant provided _).bind fun _ _ => ?_
    refine (distant_ofExcept _).mono fun targets hl => ?_
    obtain ⟨-, hn, hv⟩ := provideAll_provides hp
    exact ⟨hv, hn, signedRefs_intent hp hs, hl⟩

theorem preflight_distant (T : Tools) (i : Input) : Distant (preflight T i) (Qualified T i) :=
  (qualifyStop_distant T i.expected).bind fun _ _ => qualifyInventory_distant T i

/-- The target of this kind to which an intent belongs. -/
def Carries (t : Target) : ReceiptData → Prop
  | .queue q => t.kind = .kovaBuild ∧ t.queue = some q
  | .grant g => t.kind = .kovaBuild ∧ t.grant = some g
  | .podCreate p => t.kind = .pod ∧ p ∈ t.pods

def ownName : ReceiptData → String
  | .queue q => q.buildName
  | .grant g => g.build.buildName
  | .podCreate p => p.podName

/-- The link has the name, UID and digest of the signed receipt of this intent. -/
def LinksReceipt (exp : Expectation) (link : ReceiptLink) (d : ReceiptData) : Prop :=
  ∃ ref ∈ exp.receipts, ref.kind = receiptDataKind d ∧ ref.name = d.receiptName ∧
    link = { name := ref.name, uid := ref.uid, dataDigest := ref.dataDigest }

/-- A queued grant links the receipt of its build's queue intent, a direct one has none. -/
def QueueLinked (i : Input) (g : GrantIntent) : Prop :=
  match g.admissionMode with
  | .queued link => ∃ q ∈ i.queues, q.buildName = g.build.buildName ∧
      LinksReceipt i.expected link (.queue q)
  | .direct => ∀ q ∈ i.queues, q.buildName ≠ g.build.buildName

def Target.key (t : Target) : String ×ₗ String := toLex (t.kind.toString, t.name)

/-- Every receipt is accounted for once. -/
structure Accounted (i : Input) (targets : List Target) : Prop where
  sorted : (targets.map Target.key).Pairwise (· < ·)
  receipts : ∀ ref ∈ i.expected.receipts,
    ∃! d, d ∈ i.intents ∧ receiptDataKey d = refKey ref.kind ref.name
  carried : ∀ d ∈ i.intents, ∃ t ∈ targets, Carries t d ∧ t.name = ownName d ∧
    ∀ t' ∈ targets, Carries t' d → t' = t
  granted : ∀ t ∈ targets, t.kind = .pod → t.pods.Nodup ∧ ∃ g ∈ i.grants, t.grant = some g ∧
    (∀ g' ∈ i.grants, g'.build.buildName = g.build.buildName → g' = g) ∧
    ∀ p ∈ t.pods, p.build = g.build ∧ LinksReceipt i.expected p.grantReceipt (.grant g)
  queued : ∀ g ∈ i.grants, QueueLinked i g
  epoch : ∀ d ∈ i.intents, InEpoch i.expected.epoch d

/-- Every Pod attempt names the receipt of its own build's grant. -/
def NamesOwnGrant (i : Input) : Prop :=
  ∀ p ∈ i.podCreates, ∀ g ∈ i.grants, g.build.buildName = p.build.buildName →
    p.grantReceipt.name = grantReceiptPrefix ++ g.grantNonce

theorem Accounted.namesOwnGrant (h : Accounted i targets) : NamesOwnGrant i := by
  intro p hp g hg hn
  obtain ⟨t, ht, ⟨hk, hpt⟩, -⟩ := h.carried (.podCreate p)
    (List.mem_append_right _ (List.mem_map_of_mem hp))
  obtain ⟨-, g', -, -, hunique, hpods⟩ := h.granted t ht hk
  obtain ⟨hbuild, ref, -, -, hname, hlink⟩ := hpods p hpt
  obtain rfl := hunique g hg (hn.trans (congrArg _ hbuild))
  rw [hlink]
  exact hname

variable {exp : Expectation} {link : ReceiptLink} {d : ReceiptData}

theorem linksRef_signed {kind : String} (hv : link.valid kind)
    (h : linksRef link (findRef exp (receiptDataKind d) d.receiptName)) :
    LinksReceipt exp link d := by
  unfold linksRef at h
  split at h <;> simp only [Bool.and_eq_true, beq_iff_eq] at h <;>
    obtain ⟨⟨hname, huid⟩, hdigest⟩ := h
  · next ref hr =>
    have hk := List.find?_some hr
    simp only [Bool.and_eq_true, beq_iff_eq] at hk
    exact ⟨ref, List.mem_reverse.mp (List.mem_of_find?_eq_some hr), hk.1, hk.2,
      by rw [← hname, ← huid, ← hdigest]⟩
  · simp [ReceiptLink.valid, huid, opaqueUID] at hv

theorem Target.le_iff {a b : Target} : a.le b ↔ a.key ≤ b.key := by
  unfold Target.le Target.key
  rw [Prod.Lex.toLex_le_toLex]
  cases a.kind <;> cases b.kind <;> simp [Kind.toString]

theorem Linked.keys {byBuild byPod : List Target} (h : Linked i byBuild byPod) :
    ((byBuild ++ byPod).map Target.key).Nodup := by
  have keyed : ∀ l, Distinct l → (l.map Target.key).Nodup := fun l hl =>
    List.Nodup.of_map (fun k => (ofLex k).2) (by
      rw [List.map_map]
      exact hl)
  rw [List.map_append, List.nodup_append]
  refine ⟨keyed _ h.builds.distinct, keyed _ h.pods.distinct, ?_⟩
  simp only [List.mem_map]
  rintro _ ⟨a, ha, rfl⟩ _ ⟨b, hb, rfl⟩ he
  have hkind := congrArg (fun k => (ofLex k).1) he
  simp only [Target.key, ofLex_toLex, h.builds.kind a ha, h.pods.kind b hb] at hkind
  exact absurd hkind (by decide)

theorem linkTargets_sorted (h : linkTargets i = .ok targets) :
    (targets.map Target.key).Pairwise (· < ·) := by
  obtain ⟨byBuild, byPod, hl, rfl⟩ := linkTargets_links h
  have htrans : ∀ a b c : Target, a.le b → b.le c → a.le c := by
    simp only [Target.le_iff]
    exact fun _ _ _ => le_trans
  have htotal : ∀ a b : Target, a.le b || b.le a := by
    simp only [Bool.or_eq_true, Target.le_iff]
    exact fun a b => le_total a.key b.key
  have hle := List.pairwise_mergeSort htrans htotal (byBuild ++ byPod)
  have hne := ((List.mergeSort_perm (byBuild ++ byPod) Target.le).map Target.key).nodup_iff.mpr
    hl.keys
  rw [List.pairwise_map]
  refine (hle.and (List.pairwise_map.mp hne)).imp fun hab => ?_
  exact lt_of_le_of_ne (Target.le_iff.mp hab.1) hab.2

theorem linkTargets_carried (h : linkTargets i = .ok targets) (hd : d ∈ i.intents) :
    ∃ t ∈ targets, Carries t d ∧ t.name = ownName d ∧ ∀ t' ∈ targets, Carries t' d → t' = t := by
  obtain ⟨byBuild, byPod, ⟨hb, hp, -⟩, rfl⟩ := linkTargets_links h
  simp only [List.mem_mergeSort, List.mem_append]
  have build : ∀ t, t ∈ byBuild ∨ t ∈ byPod → t.kind = .kovaBuild → t ∈ byBuild := fun t ht hk =>
    ht.resolve_right fun h => by simp [hp.kind t h] at hk
  simp only [Input.intents, List.mem_append, List.mem_map] at hd
  rcases hd with (⟨q, hq, rfl⟩ | ⟨g, hg, rfl⟩) | ⟨p, hp', rfl⟩
  · obtain ⟨t, ht, htq⟩ := hb.queued q hq
    refine ⟨t, .inl ht, ⟨hb.kind t ht, htq⟩, (hb.queue t ht q htq).2.symm, ?_⟩
    intro t' ht' hc
    have hm := build t' ht' hc.1
    exact hb.distinct.eq hm ht ((hb.queue t' hm q hc.2).2.symm.trans (hb.queue t ht q htq).2)
  · obtain ⟨t, ht, htg⟩ := hb.granted g hg
    refine ⟨t, .inl ht, ⟨hb.kind t ht, htg⟩, (hb.grant t ht g htg).2.symm, ?_⟩
    intro t' ht' hc
    have hm := build t' ht' hc.1
    exact hb.distinct.eq hm ht ((hb.grant t' hm g hc.2).2.symm.trans (hb.grant t ht g htg).2)
  · obtain ⟨t, ht, hn⟩ := hp.covered p hp'
    refine ⟨t, .inr ht, ⟨hp.kind t ht, ?_⟩, hn, ?_⟩
    · rw [(hp.pods t ht).2]
      exact List.mem_filter.mpr ⟨hp', by simp [hn]⟩
    · rintro t' ht' ⟨hk, hmem⟩
      have hm : t' ∈ byPod := ht'.resolve_left fun h => by simp [hb.kind t' h] at hk
      rw [(hp.pods t' hm).2, List.mem_filter, beq_iff_eq] at hmem
      exact hp.distinct.eq hm ht (hmem.2.symm.trans hn.symm)

theorem BuildLinks.grant_unique {qs : List QueueIntent} {gs : List GrantIntent} {l : List Target}
    (h : BuildLinks qs gs l) {g g' : GrantIntent} (hg : g ∈ gs) (hg' : g' ∈ gs)
    (hn : g'.build.buildName = g.build.buildName) : g' = g := by
  obtain ⟨t, ht, htg⟩ := h.granted g hg
  obtain ⟨t', ht', htg'⟩ := h.granted g' hg'
  cases h.distinct.eq ht' ht
    ((h.grant t' ht' g' htg').2.symm.trans (hn.trans (h.grant t ht g htg).2))
  exact Option.some.inj (htg'.symm.trans htg)

namespace Qualified

variable (h : Qualified T i targets)
include h

theorem queueLinked {g : GrantIntent} (hg : g ∈ i.grants) : QueueLinked i g := by
  obtain ⟨byBuild, byPod, hl, -⟩ := linkTargets_links h.linked
  have hv := h.valid (.grant g) (by simp [Input.intents, hg])
  obtain ⟨-, hlinked⟩ := hl.grant g hg
  unfold QueueLinked
  cases hmode : g.admissionMode with
  | direct => simpa [hmode] using hlinked
  | queued link =>
    simp only [hmode] at hlinked
    obtain ⟨q, hq, hn, hlink⟩ := hlinked
    simp only [ReceiptData.valid, GrantIntent.valid, hmode, Bool.and_eq_true] at hv
    simp only [grantLinksQueue, hmode, Bool.and_eq_true] at hlink
    exact ⟨q, hq, hn, linksRef_signed (d := .queue q) hv.1.2 hlink.1.1.1.1.1⟩

theorem granted (hn : NamesOwnGrant i) {t : Target} (ht : t ∈ targets) (hk : t.kind = .pod) :
    t.pods.Nodup ∧ ∃ g ∈ i.grants, t.grant = some g ∧
      (∀ g' ∈ i.grants, g'.build.buildName = g.build.buildName → g' = g) ∧
      ∀ p ∈ t.pods, p.build = g.build ∧ LinksReceipt i.expected p.grantReceipt (.grant g) := by
  obtain ⟨byBuild, byPod, ⟨hb, hp, -, -, hlink⟩, rfl⟩ := linkTargets_links h.linked
  rw [List.mem_mergeSort, List.mem_append] at ht
  have hm := ht.resolve_left fun h => by simp [hb.kind t h] at hk
  obtain ⟨g, hg, htg, -⟩ := hp.grant t hm
  have hpods := (hp.pods t hm).2
  refine ⟨?_, g, hg, htg, fun g' hg' => hb.grant_unique hg hg', fun p hpt => ?_⟩
  · have hnodup := List.Nodup.of_map _ h.distinct
    rw [hpods]
    exact (List.Nodup.of_map _ (List.nodup_append.mp hnodup).2.1).filter _
  · have hbuild := hp.build t hm p hpt g htg
    rw [hpods, List.mem_filter] at hpt
    obtain ⟨-, -, -, href⟩ := hlink p hpt.1
    have hv := h.valid (.podCreate p) (by simp [Input.intents, hpt.1])
    simp only [ReceiptData.valid, PodCreateIntent.valid, Bool.and_eq_true] at hv
    have hname := hn p hpt.1 g hg (congrArg _ hbuild)
    rw [hname] at href
    exact ⟨hbuild.symm, linksRef_signed (d := .grant g) hv.1.1.1.1.1.1.2 href⟩

theorem epoch (hd : d ∈ i.intents) : InEpoch i.expected.epoch d := by
  obtain ⟨byBuild, byPod, hl, -⟩ := linkTargets_links h.linked
  simp only [Input.intents, List.mem_append, List.mem_map] at hd
  rcases hd with (⟨q, hq, rfl⟩ | ⟨g, hg, rfl⟩) | ⟨p, hp, rfl⟩
  · exact hl.queue q hq
  · exact (hl.grant g hg).1
  · obtain ⟨g, hg, hbuild, -⟩ := hl.pod p hp
    have he : BuildInEpoch _ g.build := (hl.grant g hg).1
    rwa [hbuild] at he

end Qualified

/-- Of a run that qualifies, every receipt is accounted for exactly when the attempts name their own
grants: that name is looked up, and never compared with the grant of the build. -/
theorem accounted_iff_names_own_grant {tr : List (Event Request Answer)}
    (h : (qualifyInventory T i).run.Ends tr (.ok targets)) :
    Accounted i targets ↔ NamesOwnGrant i := by
  have hq := Prog.Ensures.ended (qualifyInventory_distant T i) h _ rfl
  refine ⟨Accounted.namesOwnGrant, fun hn => ?_⟩
  refine ⟨linkTargets_sorted hq.linked, fun ref hr => ?_, fun d => linkTargets_carried hq.linked,
    fun t => hq.granted hn, fun g => hq.queueLinked, fun d => hq.epoch⟩
  obtain ⟨d, hd, hkey⟩ := hq.signed ref hr
  exact ⟨d, ⟨hd, hkey⟩, fun d' hd' =>
    List.inj_on_of_nodup_map hq.distinct hd'.1 hd (hd'.2.trans hkey.symm)⟩

def zeros (n : Nat) : String := String.ofList (List.replicate n '0')

def sampleDigest : String := "sha256:" ++ zeros 64

def sampleTools : Tools where
  ext :=
    { sha256Hex := fun _ => zeros 64, specDigest := fun _ => zeros 64, dataDigest := fun _ => ""
      dataBytes := fun _ => 0, payloadBytes := fun _ => 0, podTemplateDigest := fun _ => ""
      reservationBytes := fun _ => 0, queueBytes := fun _ => 0
      library := plainLibrary
      runnerManifestDigest := fun s => .ok s, durationString := fun _ => ""
      timeString := fun _ => "" }
  attemptSum := fun _ => 0
  mapBytes := fun _ => 1
  mapDigest := fun _ => sampleDigest
  payload := fun _ => ""
  podTemplateDigest := fun _ => sampleDigest
  verifyEnvelope := fun _ expected _ => .ok expected.permitDigest

def sampleEpoch : EpochIdentity where
  namespaceName := "kova"
  namespaceUID := "n"
  receiptNamespace := "kova-receipts"
  receiptNamespaceUID := "m"
  genesisName := "genesis"
  genesisUID := "g"
  generation := zeros 32
  activeLedgerUID := "a"
  queueLedgerUID := "q"
  workerPoolID := "pool"

def sampleQueue : QueueIntent where
  namespaceName := "kova"
  namespaceUID := "n"
  receiptNamespace := "kova-receipts"
  receiptNamespaceUID := "m"
  genesisName := "genesis"
  genesisUID := "g"
  generation := zeros 32
  activeLedgerUID := "a"
  queueLedgerUID := "q"
  buildName := "b1"
  requesterName := "user"
  requesterHash := zeros 64
  requesterUID := ""
  requestDigest := zeros 64
  sourceDigest := sampleDigest
  queueNonce := zeros 32

def sampleObject : KubeObjectRef := { namespaceName := "kova", name := "old", uid := "o" }

def sampleInput : Input where
  permit := "permit"
  expected :=
    { permitDigest := sampleDigest
      incidentID := "incident"
      stopIntent :=
        { namespaceName := "kova", name := "stop", uid := "s", dataDigest := sampleDigest }
      epoch := sampleEpoch
      receipts :=
        [{ kind := "queue", namespaceName := "kova-receipts"
           name := queueReceiptPrefix ++ zeros 32, uid := "r", dataDigest := sampleDigest }]
      workerIDs := ["w"]
      capacitySlots := 1
      ingressRoutes := [sampleObject]
      controlDeployments := [sampleObject]
      serviceProcesses := [{ pod := sampleObject, containerID := "c", processID := "p" }] }
  trustRoots := []
  maxLiabilities := 1
  queues := [sampleQueue]
  grants := []
  podCreates := []

def samplePinned (name : String) : PinnedBuild where
  namespaceName := "kova"
  namespaceUID := "n"
  receiptNamespace := "kova-receipts"
  receiptNamespaceUID := "m"
  genesisName := "genesis"
  genesisUID := "g"
  generation := zeros 32
  activeLedgerUID := "a"
  queueLedgerUID := "q"
  buildName := name
  buildUID := name
  requesterName := "user"
  requesterUID := ""
  requesterHash := zeros 64
  requestDigest := zeros 64
  sourceDigest := sampleDigest
  workerPoolID := "pool"

def sampleGrant (name : String) (digit : Char) : GrantIntent where
  build := samplePinned name
  admissionMode := .direct
  grantNonce := String.ofList (List.replicate 32 digit)
  activeLedgerFence := 1
  activeLedgerRV := "1"
  allocatedWorkerSlots := 1

def sampleRef (d : ReceiptData) : ReceiptRef where
  kind := receiptDataKind d
  namespaceName := "kova-receipts"
  name := d.receiptName
  uid := d.receiptName
  dataDigest := sampleDigest

def sampleAttempt (linked : GrantIntent) : PodCreateIntent where
  build := samplePinned "b1"
  grantReceipt :=
    { name := (ReceiptData.grant linked).receiptName
      uid := (ReceiptData.grant linked).receiptName, dataDigest := sampleDigest }
  podName := buildPodName "b1"
  podAttemptNonce := zeros 32
  podTemplateDigest := sampleDigest
  runnerImageDigest := sampleDigest
  buildRequestID := "b1"

def attemptIntents (linked : GrantIntent) : List ReceiptData :=
  [.grant (sampleGrant "b1" '0'), .grant (sampleGrant "b2" '1'), .podCreate (sampleAttempt linked)]

def attemptInput (linked : GrantIntent) : Input :=
  { sampleInput with
    expected := { sampleInput.expected with receipts := (attemptIntents linked).map sampleRef }
    maxLiabilities := 3
    queues := []
    grants := [sampleGrant "b1" '0', sampleGrant "b2" '1']
    podCreates := [sampleAttempt linked] }

def storedReceipt (d : ReceiptData) : ConfigMap where
  metadata :=
    { namespaceName := "kova-receipts", name := d.receiptName, uid := d.receiptName
      resourceVersion := "1", labels := StringMap.ofList [receiptLabel d] }
  immutable := some true
  data := StringMap.ofList (receiptFields sampleTools d)

def absentErr : ApiErr := { notFound := true, text := "not found" }

def storedAnswer (linked : GrantIntent) (_ : List (Event Request Answer)) :
    (q : Request) → Answer q
  | .listConfigMaps .. => .ok { items := (attemptIntents linked).map storedReceipt }
  | .getConfigMap key =>
    match ((attemptIntents linked).map storedReceipt).find? (·.metadata.name == key.name) with
    | some cm => .ok cm
    | none => .error absentErr
  | .getNamespace _ | .createConfigMap _ | .getBuild _ | .createBuild _ | .updateBuild _
  | .getPod _ | .createPod _ | .updatePod _ => .error absentErr
  | .returned .. => ()

theorem attempt_qualifies (linked : GrantIntent)
    (h : ((qualifyInventory sampleTools (attemptInput linked)).run.play
      (storedAnswer linked) []).2.toOption.isSome) :
    ∃ tr targets, (qualifyInventory sampleTools (attemptInput linked)).run.Ends tr (.ok targets) := by
  obtain ⟨tr, -, he⟩ := Prog.ends_play (storedAnswer linked)
    (qualifyInventory sampleTools (attemptInput linked)).run []
  revert he h
  cases ((qualifyInventory sampleTools (attemptInput linked)).run.play (storedAnswer linked) []).2
  · simp [Except.toOption]
  · exact fun _ he => ⟨tr, _, he⟩

theorem own_grant_accounted :
    ∃ tr targets, (qualifyInventory sampleTools (attemptInput (sampleGrant "b1" '0'))).run.Ends tr
      (.ok targets) ∧ Accounted (attemptInput (sampleGrant "b1" '0')) targets := by
  obtain ⟨tr, targets, he⟩ := attempt_qualifies (sampleGrant "b1" '0') (by decide +kernel)
  refine ⟨tr, targets, he, (accounted_iff_names_own_grant he).mpr ?_⟩
  unfold NamesOwnGrant
  decide +kernel

/-- The attempt of `b1` links the receipt of the grant of `b2`. -/
theorem other_grant_not_accounted :
    ∃ tr targets, (qualifyInventory sampleTools (attemptInput (sampleGrant "b2" '1'))).run.Ends tr
      (.ok targets) ∧ ¬ Accounted (attemptInput (sampleGrant "b2" '1')) targets := by
  obtain ⟨tr, targets, he⟩ := attempt_qualifies (sampleGrant "b2" '1') (by decide +kernel)
  refine ⟨tr, targets, he, fun ha => absurd ha.namesOwnGrant ?_⟩
  unfold NamesOwnGrant
  decide +kernel

end KovaService.Drain
