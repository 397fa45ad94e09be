import KovaService.Proof.Reservation

/-!
The queue store.

Each function of `queueadmission.Store` is shown to make only the moves of `QueueChange`, and to
tell its caller what the next step of the release order needs.
-/

namespace KovaService.Protocol

open Lib Api Ledger Proof KovaService.System

variable {w : World} {ρ : w.Execution} {t i j m : Nat} {id nonce : String} {e : Intent}

theorem Reserved.mono (h : Reserved ρ t i id e) (hij : i ≤ j) : Reserved ρ t j id e := by
  obtain ⟨m, hm, hs⟩ := h
  exact ⟨m, by omega, hs⟩

theorem Refused.mono (h : Refused ρ i nonce) (hij : i ≤ j) : Refused ρ j nonce := by
  obtain ⟨m, b, hm, hb⟩ := h
  exact ⟨m, b, by omega, hb⟩

variable {kind : CleanupKind}

theorem ReceiptCleaned.mono (h : ReceiptCleaned ρ i id nonce kind) (hij : i ≤ j) :
    ReceiptCleaned ρ j id nonce kind := by
  obtain ⟨k, k', e, hk, hi, he⟩ := h
  exact ⟨k, k', e, hk, by omega, he⟩

theorem ObservedReceipt.mono (h : ObservedReceipt ρ t i id e) (hij : i ≤ j) :
    ObservedReceipt ρ t j id e := by
  obtain ⟨k, k', e', r, hk, hi, he⟩ := h
  exact ⟨k, k', e', r, hk, by omega, he⟩

theorem SettledBuild.mono (h : SettledBuild ρ i id e) (hij : i ≤ j) : SettledBuild ρ j id e := by
  obtain ⟨k, k', b, c, hk, hi, he⟩ := h
  exact ⟨k, k', b, c, hk, by omega, he⟩

theorem MayClean.mono (h : MayClean ρ t i id nonce kind) (hij : i ≤ j) :
    MayClean ρ t j id nonce kind := by
  cases kind with
  | unset => exact h
  | rejected =>
    obtain ⟨⟨e, he, hn⟩, hr⟩ := h
    exact ⟨⟨e, he.mono hij, hn⟩, hr.mono hij⟩
  | terminal =>
    obtain ⟨b, hb, h⟩ := h
    exact ⟨b, versions_mono ρ hij hb, h⟩

theorem IntentMove.mono {writer : QueueWriter} {before after : Option Intent}
    (h : IntentMove ρ t m i id writer before after) (hij : i ≤ j) :
    IntentMove ρ t m j id writer before after := by
  cases h with
  | reserve ha hu hk =>
    obtain ⟨k, hmk, hki, hun⟩ := ha
    exact .reserve ⟨k, hmk, hki.trans hij, hun⟩ hu hk
  | pin hu hk => exact .pin hu hk
  | mark hu hk ho hm => exact .mark hu hk (ho.mono hij) (hm.mono hij)
  | releaseLegacy hg hb hn ha hd =>
    refine .releaseLegacy hg (versions_mono ρ hij hb) hn ha (hd.imp_right ?_)
    rintro ⟨k, hk, r, hr⟩
    exact ⟨k, by omega, r, hr⟩
  | releaseTerminal hk hc hb => exact .releaseTerminal hk (hc.mono hij) (hb.mono hij)
  | releaseRefused hg ho hn hs => exact .releaseRefused hg (ho.mono hij) hn (hs.mono hij)
  | releaseRejected hk hc => exact .releaseRejected hk (hc.mono hij)

theorem QueueChange.mono {s next : QueueState} {writer : QueueWriter}
    (h : QueueChange ρ t m i id s writer next) (hij : i ≤ j) :
    QueueChange ρ t m j id s writer next := by
  cases h with
  | set he hm => exact .set he (hm.mono hij)
  | remove he hm => exact .remove he (hm.mono hij)

end KovaService.Protocol

namespace KovaService.Proof

open Lib Api Ledger Protocol KovaService.System Queue

variable {w : World} {ρ : w.Execution} {t i j : Nat} {s : Store} {id : String} {build : KovaBuild}
variable {entry : Intent}

structure Serves (w : World) (s : Store) : Prop where
  ext : s.ext = w.ext
  genesis : s.genesis = w.genesis

def QueueRead (ρ : w.Execution) (i j : Nat) (cm : QueueMap) : Prop :=
  ∃ m, i < m ∧ m < j ∧ cm = (ρ.store m).queue

theorem readWith_does (observed : Bool) :
    Does ρ t (s.readWith observed) i (fun cm j => QueueRead ρ i j cm) := by
  have hget : ∀ k, i ≤ k → Does ρ t getQueue k (fun cm j => QueueRead ρ i j cm) := by
    intro k hk
    refine Does.request rfl (fun _ _ _ => trivial) ?_ fun _ _ _ _ _ _ => trivial
    rintro m _ cm hm hg rfl
    exact ⟨m, by omega, by omega, getQueue_answer hg⟩
  unfold Store.readWith
  refine Does.andThen (quiet_onlyIf quiet_genesisCheck).does fun _ j hj _ => ?_
  refine (observedRead_does fun k hk => hget k (hj.trans hk)).andThen fun cm k _ hcm => ?_
  exact .decoded fun _ _ => .decoded fun _ _ => .pure hcm

theorem read_does : Does ρ t s.read i (fun cm j => QueueRead ρ i j cm) :=
  readWith_does false

def HadIntent (ρ : w.Execution) (j : Nat) (id : String) (e : Intent) : Prop :=
  ∃ m, m ≤ j ∧ (ρ.store m).queue.data.intents.lookup id = some e

variable {cm : QueueMap} {e : Intent}

theorem QueueRead.intent (h : QueueRead ρ i j cm) (he : cm.data.intents.lookup id = some e) :
    HadIntent ρ j id e := by
  obtain ⟨m, -, hj, rfl⟩ := h
  exact ⟨m, hj.le, he⟩

theorem lookup_does (id : String) :
    Does ρ t (s.lookup id) i (fun o j => ∃ m, i < m ∧ m < j ∧
      o = (ρ.store m).queue.data.intents.lookup id) := by
  refine read_does.andThen fun cm j _ hcm => .pure ?_
  obtain ⟨m, h1, h2, rfl⟩ := hcm
  exact ⟨m, h1, h2, rfl⟩

def isElsewhere : Request → Prop
  | .putQueue .. => False
  | q => Writes q

def Idle (ρ : w.Execution) (t i j : Nat) : Prop := ρ.silent t isElsewhere i j

theorem isElsewhere.writes {q : Request} (h : isElsewhere q) : Writes q := by
  cases q <;> first | exact h.elim | exact h

theorem Idle.of_calm (h : Calm ρ t i j) : Idle ρ t i j :=
  silent_of_imp h fun _ => isElsewhere.writes

theorem Idle.trans {k : Nat} (h : Idle ρ t i j) (h' : Idle ρ t j k) : Idle ρ t i k :=
  Run.silent_trans h h'

theorem Idle.calm {k : Nat} (h : Idle ρ t i j) (h' : Calm ρ t j k) : Idle ρ t i k :=
  h.trans (.of_calm h')

def Stored (ρ : w.Execution) (i j : Nat) (next : QueueState) : Prop :=
  ∃ m, i < m ∧ m ≤ j ∧ (ρ.store m).queue.data = next

theorem encodeState_ok {d : QueueState} {x : Ext} (h : x.encodeState d = .ok ()) :
    d.validate = .ok () := by
  unfold Ext.encodeState at h
  split at h
  · cases h
  · assumption

variable {writer : QueueWriter} {next : QueueState}

theorem putQueue_does {patch : Option (List (PatchOp QueueState))} {rv : Nat}
    (hd : ∀ n, i ≤ n → ρ.rests t i n → QueueWrite ρ n t writer id rv next) :
    Does ρ t (putQueue writer id patch rv next) i
      (fun _ k => Stored ρ i k next ∧ Idle ρ t i k) (fun _ k => Idle ρ t i k) := by
  refine Run.wp_perform hd fun j m r hj hm h1 hs h2 hg => ?_
  have hne : ¬ isElsewhere (.putQueue writer id patch rv next) := fun h => h
  have hsil : Idle ρ t i (m + 1) := Run.silent_exchange hne h1 hs h2 hg
  cases r with
  | ok cm => exact ⟨⟨m + 1, by omega, le_rfl, putQueue_ok hg⟩, hsil⟩
  | error e => exact hsil

theorem write_does {m : Nat} (hm : m < i) (hcm : cm = (ρ.store m).queue)
    (hc : QueueChange ρ t m i id cm.data writer next) :
    Does ρ t (s.write writer id cm next) i (fun _ j => Stored ρ i j next ∧ Idle ρ t i j)
      (fun _ j => Idle ρ t i j) := by
  unfold Store.write
  refine .ofAns (fun e _ => .of_calm (calm_refl i)) fun _ he => ?_
  have hput : ∀ patch k, i ≤ k → Calm ρ t i k →
      Does ρ t (putQueue writer id patch cm.resourceVersion next) k
        (fun _ l => Stored ρ i l next ∧ Idle ρ t i l) (fun _ l => Idle ρ t i l) := by
    intro patch k hk hck
    refine (putQueue_does fun n hn _ => ?_).mono (fun _ l _ h => ⟨?_, ?_⟩) fun _ l _ h => ?_
    · refine ⟨⟨m, by omega, by rw [hcm], ?_⟩, encodeState_ok he⟩
      exact hcm ▸ hc.mono (hk.trans hn)
    · obtain ⟨n, h1, h2, hd⟩ := h.1
      exact ⟨n, by omega, h2, hd⟩
    · exact (Idle.of_calm hck).trans h.2
    · exact (Idle.of_calm hck).trans h
  split
  · refine (patchLedgerData_does quiet_getQueue fun body => hput (some body)).mono (fun _ j _ h => ?_)
      fun e j _ h => ?_
    · obtain ⟨k, hk, ⟨⟨n, h1, h2, hd⟩, hid⟩, hck⟩ := h
      exact ⟨⟨n, h1, h2.trans hk, hd⟩, hid.calm hck⟩
    · rcases h with hcj | ⟨k, -, hw, hck⟩ | ⟨e₀, -, k, -, hb, hck⟩
      · exact .of_calm hcj
      · exact hw.2.calm hck
      · exact hb.calm hck
  · exact (hput none i le_rfl (calm_refl i)).bind (fun _ j _ h => .pure h) fun e j _ h => h

theorem Stored.intent {d : QueueState} (h : Stored ρ i j (d.set id e)) : HadIntent ρ j id e := by
  obtain ⟨m, -, hj, hd⟩ := h
  exact ⟨m, hj, by rw [hd, QueueState.lookup_set_self]⟩

theorem isFreshMark.elsewhere {q : Request} (h : isFreshMark q) : isElsewhere q := by
  cases q with
  | mark m => exact .inr ⟨m, rfl⟩
  | _ => exact h.elim

/-- A fresh answer of `Reserve` names an intent of the caller that was in the ledger. -/
theorem reserve_does (hs : Serves w s) (build : KovaBuild) :
    Does ρ t (s.reserve build) i
      (fun r j => r.2 → Unspent ρ t j r.1.nonce isFreshMark ∧ HadIntent ρ j build.name r.1 ∧
        r.1.requesterHash = w.ext.hashRequester build.spec.requester.username) := by
  unfold Store.reserve
  refine newNonce_does.andThen fun nonce i₁ _ ⟨hun, _⟩ => ?_
  refine quiet_timeNow.does.andThen fun now i₂ h₂ hc₂ => ?_
  have hun : Unspent ρ t i₂ nonce isFreshMark :=
    (hun.silent h₂ hc₂).imp fun _ h => (isFreshMark.elsewhere h).writes
  refine .retry (fun _ j => Unspent ρ t j nonce isFreshMark) hun fun n _ i₃ _ hun => ?_
  refine quiet_ctxErr.does.andThen fun _ i₄ h₄ hc₄ => ?_
  refine (read_does.calmly (quiet_read s)).andThen fun cm k hk ⟨⟨m, _, hmk, hcm⟩, hc₅⟩ => ?_
  have hidle : ∀ {a b : Nat}, a ≤ b → Idle ρ t a b → Unspent ρ t a nonce isFreshMark →
      Unspent ρ t b nonce isFreshMark :=
    fun hab h hu => hu.silent hab (silent_of_imp h fun _ => isFreshMark.elsewhere)
  have hun : Unspent ρ t k nonce isFreshMark :=
    hidle (h₄.trans hk) ((Idle.of_calm hc₄).calm hc₅) hun
  split
  · refine .check fun _ => .pure fun h => ?_
    cases h
  next hnone =>
  refine .check fun _ => .check fun _ => ?_
  have hmove : ∀ e : Intent, e.nonce = nonce → e.receiptUID = "" → e.cleanupKind = .unset →
      QueueChange ρ t m k build.name cm.data .reserve (cm.data.set build.name e) :=
    fun e hn hu hc => .set hnone (.reserve ⟨k, hmk, le_rfl, hn ▸ hun⟩ hu hc)
  refine (write_does hmk hcm (hmove _ rfl rfl rfl)).attempt (fun _ l hl hw => ?_)
    fun e l hl hw => ?_
  · refine .pure fun _ => ⟨hidle hl hw.2 hun, hw.1.intent, ?_⟩
    rw [hs.ext]
  · have hun := hidle hl hw hun
    refine onConflict_does (fun _ j hj hc => hidle hj (.of_calm hc) hun) ?_
    refine ((lookup_does build.name).quietly (quiet_lookup s _)).attempt
      (fun o q hq ho => ?_) fun e q hq _ => .throw trivial
    obtain ⟨⟨m', _, hm', ho⟩, hc⟩ := ho
    cases o with
    | none => exact .throw trivial
    | some observed =>
      show Does ρ t (if _ then _ else _) q _ _
      split
      · next heq =>
        refine .pure fun _ => ⟨hidle hq (.of_calm hc) hun, ?_, ?_⟩
        · exact ⟨m', hm'.le, by rw [← ho, eq_of_beq heq]⟩
        · rw [hs.ext]
      · exact .throw trivial

theorem pinReceipt_does (build : KovaBuild) (reserved : Intent) (witness : ObservedQueueIntent) :
    Does ρ t (s.pinReceipt build reserved witness) i (fun _ j => Idle ρ t i j) := by
  unfold Store.pinReceipt
  refine (quiet_checkReceiptNamespace s).does.andThen fun _ i₁ _ hc₁ => ?_
  refine .decoded fun expected _ => .check fun _ => ?_
  refine .retry (fun _ j => Idle ρ t i j) (.of_calm hc₁) fun n _ i₂ _ hidle => ?_
  refine (read_does.calmly (quiet_read s)).andThen fun cm k hk ⟨⟨m, _, hmk, hcm⟩, hc₂⟩ => ?_
  have hidle := hidle.calm hc₂
  split
  · exact .throw trivial
  next entry he =>
  refine .check fun hx => ?_
  simp only [Bool.or_eq_false_iff, bne_eq_false_iff_eq] at hx
  show Does ρ t (if _ then _ else _) k _ _
  split
  · refine .check fun _ => ?_
    refine (quiet_checkReceiptNamespace s).does.andThen fun _ l _ hc => .pure ?_
    exact hidle.calm hc
  next hu =>
  have hmove : QueueChange ρ t m k build.name cm.data .pinReceipt (cm.data.set build.name
      { entry with
        receiptUID := witness.receiptUID, receiptDigest := witness.dataDigest }) :=
    .set he (.pin (by simpa using hu) hx.2)
  refine (write_does hmk hcm hmove).attempt (fun _ l hl hw => ?_) fun e l hl hw => ?_
  · have hidle := hidle.trans hw.2
    refine (quiet_lookup s _).does.andThen fun observed q _ hc => .check fun _ => ?_
    refine (quiet_checkReceiptNamespace s).does.andThen fun _ z _ hc' => .pure ?_
    exact (hidle.calm hc).calm hc'
  · have hidle := hidle.trans hw
    refine onConflict_does (fun _ j hj hc => hidle.calm hc) ?_
    refine (quiet_lookup s _).does.attempt (fun o q _ hc => ?_) fun _ _ _ _ => .throw trivial
    refine .check fun _ => ?_
    refine (quiet_checkReceiptNamespace s).does.andThen fun _ z _ hc' => .pure ?_
    exact (hidle.calm hc).calm hc'

theorem receiptIntent_nonce {intent : QueueIntent} (h : s.receiptIntent build entry = .ok intent) :
    intent.queueNonce = entry.nonce := by
  unfold Store.receiptIntent at h
  split at h
  · cases h
  · split_ifs at h
    dsimp only at h
    split at h
    · cases h
    · cases h
      rfl

theorem observePinnedReceipt_does (hs : Serves w s) (build : KovaBuild)
    (he : HadIntent ρ i build.name entry) :
    Does ρ t (s.observePinnedReceipt build entry) i
      (fun _ j => ObservedReceipt ρ t j build.name entry) := by
  obtain ⟨m, hm, hlook⟩ := he
  unfold Store.observePinnedReceipt Store.observePinnedReceiptWith
  refine (quiet_checkReceiptNamespaceWith s false).does.andThen fun _ j hj _ => ?_
  refine .check fun hx => ?_
  simp only [Bool.or_eq_false_iff, bne_eq_false_iff_eq, beq_eq_false_iff_ne] at hx
  refine .decoded fun intent hintent => .decoded fun expected hnew => ?_
  obtain ⟨hname, hdata⟩ := newReceipt_data hnew
  have hnonce : intent.queueNonce = entry.nonce := receiptIntent_nonce hintent
  have hread : ∀ k, j ≤ k → Does ρ t (getReceipt expected.name) k
      (fun r l => ∃ n, i < n ∧ n < l ∧ ρ.gets n t (.getReceipt expected.name) (.ok r)) := by
    intro k hk
    refine (getReceipt_does _).imp fun r l _ ⟨n, h1, h2, hg⟩ => ⟨n, by omega, h2, hg⟩
  refine (observedRead_does hread).attempt (fun r k _ hr => ?_) fun e k _ _ => .throw trivial
  obtain ⟨n, hin, hnk, hg⟩ := hr
  dsimp only
  split
  · exact .throw trivial
  next witness hq =>
  refine .check fun hw => ?_
  simp only [Bool.or_eq_false_iff, bne_eq_false_iff_eq] at hw
  obtain ⟨-, -, -, huid, hdig⟩ := qualify_ok hq
  refine (quiet_onlyIf quiet_genesisCheck).does.imp fun _ l hl _ => ?_
  refine ⟨m, n, entry, r, by omega, by omega, hlook, rfl, rfl, rfl, hx.1.1.2, ?_, ?_, ?_⟩
  · rwa [hname, ReceiptData.receiptName, hnonce] at hg
  · rw [← huid, hw.1]
  · rw [← hs.ext, ← hdig, hw.2]

def MarkedIntent (ρ : w.Execution) (j : Nat) (id : String) (e : Intent) (kind : CleanupKind) :
    Prop :=
  ∃ e', HadIntent ρ j id e' ∧ e'.nonce = e.nonce ∧ e'.receiptUID = e.receiptUID ∧
    e'.cleanupKind = kind

theorem markReceiptCleanupReady_does {expected : Intent} (ho : ObservedReceipt ρ t i id expected)
    (hm : MayClean ρ t i id expected.nonce kind) :
    Does ρ t (s.markReceiptCleanupReady id expected kind) i
      (fun _ j => MarkedIntent ρ j id expected kind) := by
  unfold Store.markReceiptCleanupReady
  refine .check fun _ => ?_
  refine .retry (fun _ _ => True) trivial fun n _ i₁ hi₁ _ => ?_
  refine read_does.andThen fun cm k hk hread => ?_
  split
  · exact .throw trivial
  next entry he =>
  have hhad : HadIntent ρ k id entry := hread.intent he
  obtain ⟨m, _, hmk, hcm⟩ := hread
  refine .check fun hx => ?_
  simp only [Bool.or_eq_false_iff, bne_eq_false_iff_eq, beq_eq_false_iff_ne] at hx
  obtain ⟨⟨⟨⟨⟨hnonce, -⟩, -⟩, huid⟩, hdig⟩, hne⟩ := hx
  show Does ρ t (if _ then _ else _) k _ _
  split
  · next hkind => exact .pure ⟨entry, hhad, hnonce, huid, eq_of_beq hkind⟩
  · refine .check fun hunset => ?_
    have hobs : ObservedReceipt ρ t k id entry := by
      obtain ⟨k₁, k₂, e', r, h1, h2, hl, hn, hu, hd, hc, hg, hru, hrd⟩ := ho
      exact ⟨k₁, k₂, e', r, h1, by omega, hl, hn.trans hnonce.symm, hu.trans huid.symm,
        hd.trans hdig.symm, hc, hnonce ▸ hg, hru.trans huid.symm, hrd.trans hdig.symm⟩
    have hmove : QueueChange ρ t m k id cm.data .markReceiptCleanupReady
        (cm.data.set id { entry with cleanupKind := kind }) :=
      .set he (.mark hne (by simpa using hunset) hobs (hnonce ▸ hm.mono (hi₁.trans hk)))
    refine (write_does hmk hcm hmove).attempt (fun _ l hl hw => ?_) fun e l hl hw => ?_
    · exact .pure ⟨_, hw.1.intent, hnonce, huid, rfl⟩
    · refine onConflict_does (fun _ _ _ _ => trivial) ?_
      refine (lookup_does id).attempt (fun o q _ ho => ?_) fun _ _ _ _ => .throw trivial
      obtain ⟨m', _, hm', ho⟩ := ho
      cases o with
      | none => exact .throw trivial
      | some observed =>
        refine .check fun hy => .pure ?_
        simp only [Bool.or_eq_false_iff, bne_eq_false_iff_eq] at hy
        exact ⟨observed, ⟨m', hm'.le, ho.symm⟩, hy.1.1.1.trans hnonce, hy.1.1.2.trans huid, hy.2⟩

theorem deletePinnedReceipt_does (he : MarkedIntent ρ i id entry entry.cleanupKind) :
    Does ρ t (s.deletePinnedReceipt entry) i
      (fun _ j => ReceiptCleaned ρ j id entry.nonce entry.cleanupKind) := by
  obtain ⟨e', ⟨m, hm, hlook⟩, hnonce, huid, hkind⟩ := he
  unfold Store.deletePinnedReceipt
  refine .check fun hx => ?_
  simp only [Bool.or_eq_false_iff, beq_eq_false_iff_ne] at hx
  refine (quiet_checkReceiptNamespace s).does.andThen fun _ j hj _ => ?_
  have hgone : ∀ k l, i ≤ k → (∃ n, k < n ∧ n < l ∧
      (ρ.store n).receipts.lookup (queueReceiptPrefix ++ entry.nonce) = none) →
      ReceiptCleaned ρ l id entry.nonce entry.cleanupKind := by
    rintro k l hk ⟨n, h1, h2, hn⟩
    exact ⟨m, n, e', by omega, h2, hlook, hnonce, hkind, hn⟩
  have hdel : ∀ n, i ≤ n →
      ReceiptDeletion ρ n (queueReceiptPrefix ++ entry.nonce) entry.receiptUID :=
    fun n hn => .inl ⟨m, id, e', hm.trans hn, hlook, by rw [hnonce], hkind ▸ hx.1.2, huid.symm⟩
  refine (getReceipt_does _).attempt (fun current k hk _ => ?_) fun e k hk habs => ?_
  · refine .check fun hy => ?_
    simp only [Bool.or_eq_false_iff, bne_eq_false_iff_eq] at hy
    have huc : current.uid = entry.receiptUID := hy.1.1.1.1.2
    refine quiet_genesisCheck.does.andThen fun _ l hl _ => ?_
    rw [huc]
    refine (deleteReceipt_does fun n hn => hdel n (by omega)).attempt (fun _ q hq _ => ?_)
      fun _ q hq _ => ?_
    all_goals
      refine (getReceipt_does _).attempt (fun after z _ _ => ?_) fun e z hz habs => ?_
      · exact .check fun _ => .decoded fun _ _ => .throw trivial
      · refine .check fun hnf => ?_
        have habs := habs (by simpa using hnf)
        exact quiet_genesisCheck.does.imp fun _ y hy _ => (hgone q z (by omega) habs).mono hy
  · refine .check fun hnf => ?_
    have habs := habs (by simpa using hnf)
    exact quiet_genesisCheck.does.imp fun _ l hl _ => (hgone j k hj habs).mono hl

def SawSettled (ρ : w.Execution) (i j : Nat) (build : KovaBuild) (e : Intent) : Prop :=
  ∃ k k' b c, i < k ∧ k ≤ k' ∧ k' < j ∧ (ρ.store k).builds.lookup build.name = some b ∧
    (ρ.store k').builds.lookup build.name = some c ∧ b.uid = build.uid ∧ c.uid = build.uid ∧
    b.terminalOrDeleting ∧ b.annotations.queueIntent = e.nonce ∧
    b.annotations.queueReceiptUID = e.receiptUID ∧
    c.annotations.queueReceiptSettledUID = e.receiptUID

theorem updateBuild_does {b : KovaBuild} (hd : ∀ n, i ≤ n → ∃ base, MetadataWrite ρ n b base) :
    Does ρ t (updateBuild b) i (fun _ _ => True) :=
  Does.request rfl (fun n hn _ => hd n hn) (fun _ _ _ _ _ _ => trivial) fun _ _ _ _ _ _ => trivial

theorem markReceiptSettled_does (hgone : EntryGone ρ i build.uid) :
    Does ρ t (Store.markReceiptSettled build entry) i
      (fun _ j => SawSettled ρ i j build entry) := by
  unfold Store.markReceiptSettled
  refine .retry (fun _ _ => True) trivial fun n _ i₁ hi₁ _ => ?_
  refine (getBuild_does _).andThen fun current j hj hread => ?_
  obtain ⟨m, him, hmj, hlook, hname, hver⟩ := hread.stored
  refine .check fun hx => ?_
  simp only [Bool.or_eq_false_iff, bne_eq_false_iff_eq, beq_eq_false_iff_ne,
    Bool.not_eq_false'] at hx
  obtain ⟨⟨⟨⟨⟨-, huid⟩, hend⟩, hint⟩, hrec⟩, hdig⟩ := hx
  have hsaw : ∀ l k' c, m ≤ k' → k' < l → (ρ.store k').builds.lookup build.name = some c →
      c.uid = build.uid → c.annotations.queueReceiptSettledUID = entry.receiptUID →
      SawSettled ρ i l build entry :=
    fun l k' c h1 h2 hl hu hs =>
      ⟨m, k', current, c, by omega, h1, h2, hlook, hl, huid, hu, hend, hint, hrec, hs⟩
  show Does ρ t (if _ then _ else _) j _ _
  split
  · next hs => exact .pure (hsaw j m current le_rfl hmj hlook huid (eq_of_beq hs))
  · refine .check fun hset => ?_
    have hset : current.annotations.queueReceiptSettledUID = "" := by simpa using hset
    refine quiet_genesisCheck.does.andThen fun _ k hk _ => ?_
    have hwrite : ∀ n, k ≤ n → ∃ base, MetadataWrite ρ n { current with
        annotations := { current.annotations with
          queueReceiptSettledUID := entry.receiptUID } } base := by
      intro n hn
      refine ⟨current, versions_mono ρ (by omega) hver, rfl,
        ⟨rfl, rfl, rfl, fun _ => rfl, fun h => absurd hset h⟩, .inr ⟨hrec.symm, ?_⟩⟩
      obtain ⟨g, hg, habs, hf⟩ := hgone
      exact ⟨g, m, by omega, by omega, huid ▸ habs, huid ▸ hf, hname ▸ hlook, hend⟩
    refine (updateBuild_does hwrite).attempt (fun stored l hl _ => ?_) fun e l hl _ => ?_
    all_goals
      refine (getBuild_does _).attempt (fun o q _ ho => ?_) fun e' q _ _ => ?_
      · obtain ⟨n', h1, h2, hlo, -, -⟩ := ho.stored
        dsimp only
        split
        · next hs =>
          simp only [Bool.and_eq_true, beq_iff_eq] at hs
          refine quiet_genesisCheck.does.andThen fun _ z hz _ => .pure ?_
          exact hsaw z n' o (by omega) (by omega) hlo hs.1 hs.2
        · first
          | exact .throw trivial
          | exact onConflict_does (fun _ _ _ _ => trivial) (Does.throw trivial)
      · dsimp only
        split
        · next hs => cases hs
        · first
          | exact .throw trivial
          | exact onConflict_does (fun _ _ _ _ => trivial) (Does.throw trivial)

def IntentGone (ρ : w.Execution) (j : Nat) (id : String) : Prop :=
  ∃ m, m ≤ j ∧ (ρ.store m).queue.data.intents.lookup id = none

theorem removeIntent_does {n m : Nat} {Post : Unit → Nat → Prop} {I : Unit → Nat → Prop}
    (hm : m < i) (hcm : cm = (ρ.store m).queue)
    (hmove : QueueChange ρ t m i id cm.data writer (cm.data.remove id))
    (hI : ∀ j, i ≤ j → I () j) (hP : ∀ j, i ≤ j → IntentGone ρ j id → Post () j) :
    Does ρ t (s.removeIntent writer id n cm) i (roundPost Post I) := by
  unfold Store.removeIntent
  refine (write_does hm hcm hmove).attempt (fun _ l hl hw => ?_) fun e l hl _ => ?_
  · refine .pure (hP l hl ?_)
    obtain ⟨k, -, hk, hd⟩ := hw.1
    exact ⟨k, hk, by rw [hd, QueueState.lookup_remove_self]⟩
  · refine onConflict_does (fun _ j hj _ => hI j (hl.trans hj)) ?_
    refine (lookup_does id).attempt (fun o q hq ho => ?_) fun _ _ _ _ => .throw trivial
    obtain ⟨m', _, hm', ho⟩ := ho
    cases o with
    | some observed => exact .throw trivial
    | none => exact .pure (hP q (hl.trans hq) ⟨m', hm'.le, ho.symm⟩)

/-- The release of a Genesis build that has lost its entry in the active ledger. -/
theorem releaseReceiptedBuild_does (hs : Serves w s) (hb : build ∈ (ρ.store i).versions)
    (hgone : EntryGone ρ i build.uid) :
    Does ρ t (s.releaseReceiptedBuild build) i
      (fun _ j => build.annotations.queueIntent = "" ∨ Released ρ j build) := by
  unfold Store.releaseReceiptedBuild
  refine .check fun hx => ?_
  simp only [Bool.or_eq_false_iff, beq_eq_false_iff_ne, Bool.not_eq_false'] at hx
  dsimp only
  split
  · next hnil => exact .pure (.inl (eq_of_beq hnil))
  refine .retry (fun _ _ => True) trivial fun n _ i₁ hi₁ _ => ?_
  refine read_does.andThen fun cm k hk hread => ?_
  split
  · next hnone =>
    -- the intent is gone already: the build and the absent receipt say that its release was complete
    obtain ⟨m, _, hmk, hcm⟩ := hread
    refine (getBuild_does _).andThen fun persisted l hl hper => ?_
    obtain ⟨m', h1, h2, hlook, -, -⟩ := hper.stored
    refine .check fun hy => ?_
    simp only [Bool.or_eq_false_iff, bne_eq_false_iff_eq, beq_eq_false_iff_ne] at hy
    refine (quiet_checkReceiptNamespace s).does.andThen fun _ q hq _ => ?_
    refine (getReceipt_does _).attempt (fun _ _ _ _ => .throw trivial) fun e z hz habs => ?_
    refine .check fun hnf => ?_
    obtain ⟨r, hr1, hr2, habs⟩ := habs (by simpa using hnf)
    refine quiet_genesisCheck.does.andThen fun _ y hy' _ => .pure (.inr ⟨?_, ?_, ?_⟩)
    · exact ⟨m, by omega, hcm ▸ hnone⟩
    · exact fun _ => ⟨r, by omega, habs⟩
    · exact fun _ => ⟨m', persisted, by omega, hlook, hy.1.1.1.1, hy.1.2⟩
  next entry he =>
  have hhad : HadIntent ρ k build.name entry := hread.intent he
  obtain ⟨m, _, hmk, hcm⟩ := hread
  refine .check fun hy => ?_
  simp only [Bool.or_eq_false_iff, bne_eq_false_iff_eq, beq_eq_false_iff_ne] at hy
  obtain ⟨⟨⟨⟨⟨hnonce, -⟩, -⟩, hne⟩, hrec⟩, -⟩ := hy
  cases hkind : entry.cleanupKind with
  | unset =>
    refine (observePinnedReceipt_does hs build hhad).andThen fun _ l hl hobs => ?_
    have hmay : MayClean ρ t l build.name entry.nonce .terminal :=
      ⟨build, versions_mono ρ (by omega) hb, rfl, hnonce.symm, hx.2⟩
    exact (markReceiptCleanupReady_does hobs hmay).andThen fun _ _ _ _ => .pure trivial
  | rejected => exact .throw trivial
  | terminal =>
    have hmarked : MarkedIntent ρ k build.name entry entry.cleanupKind :=
      ⟨entry, hhad, rfl, rfl, rfl⟩
    refine (deletePinnedReceipt_does hmarked).andThen fun _ l hl hclean => ?_
    refine (markReceiptSettled_does (hgone.mono (by omega))).andThen fun _ q hq hset => ?_
    obtain ⟨k₁, k₂, b, c, h1, h2, h3, hlb, hlc, hub, huc, hend, hint, hru, hsu⟩ := hset
    have hsettled : SettledBuild ρ q build.name entry :=
      ⟨k₁, k₂, b, c, h2, h3, hlb, hlc, huc.trans hub.symm, hend, hint, hru, hsu, hne⟩
    have hmove : QueueChange ρ t m q build.name cm.data .releaseReceiptedBuild
        (cm.data.remove build.name) :=
      .remove he (.releaseTerminal hkind (hkind ▸ hclean.mono hq) hsettled)
    refine removeIntent_does (by omega) hcm hmove (fun _ _ => trivial) fun j hj hig => .inr ?_
    obtain ⟨r₁, r₂, -, -, hr₂, -, -, -, habs⟩ := hclean
    refine ⟨hig, fun _ => ⟨r₂, by omega, hnonce ▸ habs⟩, fun _ => ?_⟩
    exact ⟨k₂, c, by omega, hlc, huc, hsu ▸ hne⟩

theorem releaseForBuild_does (hs : Serves w s) (hb : build ∈ (ρ.store i).versions)
    (hlegacy : w.genesis = none → build.terminalOrDeleting ∨
      ∃ k, k ≤ i ∧ ∃ r, (ρ.store k).ledger.data.active.lookup build.uid = some r)
    (hgone : w.genesis.isSome → EntryGone ρ i build.uid) :
    Does ρ t (s.releaseForBuild build) i
      (fun _ j => build.annotations.queueIntent = "" ∨ Released ρ j build) := by
  unfold Store.releaseForBuild
  split
  · next hg => exact releaseReceiptedBuild_does hs hb (hgone (hs.genesis ▸ hg))
  next hg =>
  have hg : w.genesis = none := by simpa [hs.genesis] using hg
  have hnot : ∀ P : Prop, w.genesis.isSome = true → P := by
    intro P h
    simp [hg] at h
  dsimp only
  split
  · next hnil => exact .pure (.inl (eq_of_beq hnil))
  refine .retry (fun _ _ => True) trivial fun n _ i₁ hi₁ _ => ?_
  refine read_does.andThen fun cm k hk hread => ?_
  obtain ⟨m, _, hmk, hcm⟩ := hread
  split
  · next hnone =>
    refine .pure (.inr ⟨⟨m, hmk.le, hcm ▸ hnone⟩, hnot _, hnot _⟩)
  next entry he =>
  refine .check fun hy => ?_
  simp only [Bool.or_eq_false_iff, bne_eq_false_iff_eq] at hy
  have hmove : QueueChange ρ t m k build.name cm.data .releaseForBuild
      (cm.data.remove build.name) := by
    refine .remove he (.releaseLegacy hg (versions_mono ρ (by omega) hb) rfl hy.1.1.symm ?_)
    refine (hlegacy hg).imp_right ?_
    rintro ⟨q, hq, r, hr⟩
    exact ⟨q, by omega, r, hr⟩
  exact removeIntent_does hmk hcm hmove (fun _ _ => trivial)
    fun j hj hig => .inr ⟨hig, hnot _, hnot _⟩

/-- What allows the release of a refused submission. -/
structure MayReject (ρ : w.Execution) (t i : Nat) (id nonce : String) : Prop where
  refused : w.genesis = none → (∃ e, Reserved ρ t i id e ∧ e.nonce = nonce) ∧ Refused ρ i nonce
  cleaned : w.genesis.isSome → ReceiptCleaned ρ i id nonce .rejected

variable {nonce : String}

theorem releaseRejectedIntent_does (hs : Serves w s) (h : MayReject ρ t i id nonce) :
    Does ρ t (s.releaseRejectedIntent id nonce) i (fun _ _ => True) := by
  unfold Store.releaseRejectedIntent
  refine .retry (fun _ _ => True) trivial fun n _ i₁ hi₁ _ => ?_
  refine read_does.andThen fun cm k hk hread => ?_
  obtain ⟨m, _, hmk, hcm⟩ := hread
  split
  · exact .pure trivial
  next entry he =>
  refine .check fun hn => .check fun hx => ?_
  have hn : entry.nonce = nonce := by simpa using hn
  have hmove : QueueChange ρ t m k id cm.data .releaseRejected (cm.data.remove id) := by
    by_cases hg : w.genesis.isSome = true
    · have hclean := h.cleaned hg
      simp only [hs.genesis, hg, Bool.true_and, Bool.or_eq_false_iff, bne_eq_false_iff_eq] at hx
      exact .remove he (.releaseRejected hx.1 (hn ▸ hclean.mono (by omega)))
    · have hg : w.genesis = none := by simpa using hg
      obtain ⟨⟨e, hres, hne⟩, href⟩ := h.refused hg
      exact .remove he (.releaseRefused hg (hres.mono (by omega)) (hne.trans hn.symm)
        (hn ▸ href.mono (by omega)))
  exact removeIntent_does hmk hcm hmove (fun _ _ => trivial) fun _ _ _ => trivial

theorem releaseRejected_does (hs : Serves w s) (hr : ∃ e, Reserved ρ t i id e ∧ e.nonce = nonce)
    (href : Refused ρ i nonce) :
    Does ρ t (s.releaseRejected id nonce) i (fun _ _ => True) := by
  unfold Store.releaseRejected
  refine .check fun hg => releaseRejectedIntent_does hs ⟨fun _ => ⟨hr, href⟩, fun hg' => ?_⟩
  rw [hs.genesis, hg'] at hg
  cases hg

theorem releaseRejectedReceipt_does (hs : Serves w s) {witness : ObservedQueueIntent}
    (hr : ∃ e, Reserved ρ t i build.name e ∧ e.nonce = witness.intent.queueNonce)
    (href : Refused ρ i witness.intent.queueNonce) :
    Does ρ t (s.releaseRejectedReceipt build witness) i (fun _ _ => True) := by
  unfold Store.releaseRejectedReceipt
  refine .check fun hx => ?_
  simp only [Bool.or_eq_false_iff, hs.genesis] at hx
  refine (lookup_does build.name).andThen fun o k hk ho => ?_
  obtain ⟨m, _, hmk, ho⟩ := ho
  cases o with
  | none => exact .throw trivial
  | some entry =>
    refine .check fun hy => ?_
    simp only [Bool.or_eq_false_iff, bne_eq_false_iff_eq] at hy
    have hnonce : entry.nonce = witness.intent.queueNonce := hy.1.1.1
    have hhad : HadIntent ρ k build.name entry := ⟨m, hmk.le, ho.symm⟩
    refine (observePinnedReceipt_does hs build hhad).andThen fun _ l hl hobs => ?_
    obtain ⟨e, hres, hen⟩ := hr
    have hmay : MayClean ρ t l build.name entry.nonce .rejected :=
      ⟨⟨e, hres.mono (by omega), hen.trans hnonce.symm⟩, hnonce ▸ href.mono (by omega)⟩
    refine (markReceiptCleanupReady_does hobs hmay).andThen fun _ q hq hmark => ?_
    have hmarked : MarkedIntent ρ q build.name { entry with cleanupKind := .rejected } .rejected :=
      hmark
    refine (deletePinnedReceipt_does hmarked).andThen fun _ z hz hclean => ?_
    refine releaseRejectedIntent_does hs ⟨fun hg => ?_, fun _ => hclean⟩
    simp [hg] at hx

theorem resumeRejectedCleanup_does (hs : Serves w s) :
    Does ρ t (s.resumeRejectedCleanup id nonce) i (fun _ _ => True) := by
  unfold Store.resumeRejectedCleanup
  refine .check fun hx => ?_
  rw [hs.genesis] at hx
  refine (lookup_does id).andThen fun o k hk ho => ?_
  obtain ⟨m, _, hmk, ho⟩ := ho
  cases o with
  | none => exact .throw trivial
  | some entry =>
    refine .check fun hy => ?_
    simp only [Bool.or_eq_false_iff, bne_eq_false_iff_eq] at hy
    refine (quiet_getBuild id).does.attempt (fun _ _ _ _ => .throw trivial) fun e l hl _ => ?_
    refine .check fun _ => ?_
    have hmarked : MarkedIntent ρ l id entry entry.cleanupKind :=
      ⟨entry, ⟨m, by omega, ho.symm⟩, rfl, rfl, rfl⟩
    refine (deletePinnedReceipt_does hmarked).andThen fun _ z hz hclean => ?_
    rw [hy.1, hy.2] at hclean
    refine releaseRejectedIntent_does hs ⟨fun hg => ?_, fun _ => hclean⟩
    simp [hg] at hx

end KovaService.Proof
