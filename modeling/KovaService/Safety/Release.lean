import KovaService.Safety.Quota

/-!
The order of a queue release in Genesis mode: a cleanup kind is committed while the exact receipt is
observed, the receipt goes, the build stores its settled mark, and only then the intent leaves the
ledger.
-/

namespace KovaService.Safety

open Lib Api Ledger Protocol Proof KovaService.System

variable {w : World} {ρ : w.Execution} {n m k t : Nat} {id : String} {e e' : Intent}

theorem intent_between {j : Nat} (he : intentAt ρ m id = some e) (he' : intentAt ρ n id = some e')
    (hn : e'.nonce = e.nonce) (hmj : m ≤ j) (hjn : j ≤ n) :
    ∃ e'', intentAt ρ j id = some e'' ∧ e''.nonce = e.nonce := by
  by_contra hlost
  obtain ⟨i, hmi, hij, ⟨e₁, he₁, hn₁⟩, hlost'⟩ := exists_last_instant
    (P := fun i => ∃ e'', intentAt ρ i id = some e'' ∧ e''.nonce = e.nonce) hmj ⟨e, he, rfl⟩ hlost
  have hnone : intentAt ρ (i + 1) id = none := by
    by_contra hsome
    obtain ⟨e₂, he₂⟩ := Option.ne_none_iff_exists'.mp hsome
    exact hlost' ⟨e₂, he₂, (intent_keeps_succ he₁ he₂).nonce.trans hn₁⟩
  exact nonce_never_returns he₁ hnone (by omega) e' he' (hn.trans hn₁.symm)

theorem Keeps.trans {e'' : Intent} (h : Keeps e e') (h' : Keeps e' e'') : Keeps e e'' where
  nonce := h'.nonce.trans h.nonce
  requesterHash := h'.requesterHash.trans h.requesterHash
  receipt hne := by
    obtain ⟨hu, hd⟩ := h.receipt hne
    obtain ⟨hu', hd'⟩ := h'.receipt (hu ▸ hne)
    exact ⟨hu'.trans hu, hd'.trans hd⟩
  cleanupKind hne := by
    have hk := h.cleanupKind hne
    exact (h'.cleanupKind (hk ▸ hne)).trans hk

theorem intent_keeps (hmn : m ≤ n) (he : intentAt ρ m id = some e) (he' : intentAt ρ n id = some e')
    (hn : e'.nonce = e.nonce) : Keeps e e' := by
  induction hmn generalizing e' with
  | refl =>
    rw [he] at he'
    cases he'
    exact .refl e
  | @step n hmn ih =>
    obtain ⟨e₁, he₁, hn₁⟩ := intent_between he he' hn hmn (Nat.le_succ n)
    exact (ih he₁ hn₁).trans (intent_keeps_succ he₁ he')

/-- How an intent left the ledger at instant `n`: its kind was committed at `j`, by a thread that had
read the exact receipt; at the later instant `i` the receipt was absent; and an intent of the
terminal kind belonged to a build that had ended and named the receipt as settled. -/
structure ReleaseOrder (ρ : w.Execution) (n : Nat) (id : String) (e : Intent) : Prop where
  kind : e.cleanupKind ≠ .unset
  cleaned : ∃ j i m k t e₀, j < i ∧ i < n ∧ QueueCommit ρ j m k t .markReceiptCleanupReady id ∧
    e₀.nonce = e.nonce ∧ e₀.receiptUID = e.receiptUID ∧ e₀.receiptDigest = e.receiptDigest ∧
    ObservedReceipt ρ t k id e₀ ∧
    (ρ.store i).receipts.lookup (queueReceiptPrefix ++ e.nonce) = none
  settled : e.cleanupKind = .terminal → ∃ i c, i < n ∧ (ρ.store i).builds.lookup id = some c ∧
    c.annotations.queueIntent = e.nonce ∧ c.terminalOrDeleting ∧
    c.annotations.queueReceiptSettledUID = e.receiptUID ∧ e.receiptUID ≠ ""

theorem cleaned_order {kind : CleanupKind} (he : intentAt ρ n id = some e) (hkn : k ≤ n)
    (hne : kind ≠ .unset) (h : ReceiptCleaned ρ k id e.nonce kind) :
    ∃ j i m k t e₀, j < i ∧ i < n ∧ QueueCommit ρ j m k t .markReceiptCleanupReady id ∧
      e₀.nonce = e.nonce ∧ e₀.receiptUID = e.receiptUID ∧ e₀.receiptDigest = e.receiptDigest ∧
      ObservedReceipt ρ t k id e₀ ∧
      (ρ.store i).receipts.lookup (queueReceiptPrefix ++ e.nonce) = none := by
  obtain ⟨k₁, k₂, e₁, h12, h2k, he₁, hn₁, hk₁, hnone⟩ := h
  obtain ⟨j, m', k', t', e₀, hj, hc, -, hn₀, hu₀, hd₀, hpin, hobs, -⟩ :=
    kind_committed he₁ (hk₁ ▸ hne)
  have hkeep := (intent_keeps (by omega) he₁ he hn₁.symm).receipt hpin
  exact ⟨j, k₂, m', k', t', e₀, by omega, by omega, hc, hn₀.trans hn₁, hu₀.trans hkeep.1.symm,
    hd₀.trans hkeep.2.symm, hobs, hnone⟩

theorem release_order (hg : w.genesis.isSome) (he : intentAt ρ n id = some e)
    (hn : intentAt ρ (n + 1) id = none) : ReleaseOrder ρ n id e := by
  obtain ⟨m, k, t, writer, hc, hmove⟩ := intent_removed he hn
  have hb := hc.before
  cases hmove with
  | releaseLegacy hno | releaseRefused hno => simp [hno] at hg
  | releaseTerminal hk hclean hset =>
    refine ⟨by simp [hk], cleaned_order he hb.2.le (by simp) hclean, fun _ => ?_⟩
    obtain ⟨k₁, k₂, b, c, h12, h2k, hl, hlc, hcu, -, hq, -, hs, hne⟩ := hset
    have hv := ((versions_ok ρ k₁).current _ _ hl).1
    have hvc := ((versions_ok ρ k₂).current _ _ hlc).1
    have hci : c.annotations.queueIntent = e.nonce :=
      stored_later (P := fun b => b.annotations.queueIntent = e.nonce)
        (fun _ _ _ hrev h => hrev.advance.linked.intent.trans h) hv hq h12 hlc hcu
    exact ⟨k₂, c, by omega, hlc, hci, settled_ended hvc (hs ▸ hne), hs, hne⟩
  | releaseRejected hk hclean =>
    exact ⟨by simp [hk], cleaned_order he hb.2.le (by simp) hclean, fun h => by simp [hk] at h⟩

theorem release_path (hg : w.genesis.isSome) (he : intentAt ρ n id = some e)
    (hn : intentAt ρ (n + 1) id = none) :
    ∃ m k t, QueueCommit ρ n m k t .releaseReceiptedBuild id ∧ e.cleanupKind = .terminal ∨
      QueueCommit ρ n m k t .releaseRejected id ∧ e.cleanupKind = .rejected := by
  obtain ⟨m, k, t, writer, hc, hmove⟩ := intent_removed he hn
  refine ⟨m, k, t, ?_⟩
  cases hmove with
  | releaseLegacy hno | releaseRefused hno => simp [hno] at hg
  | releaseTerminal hk => exact .inl ⟨hc, hk⟩
  | releaseRejected hk => exact .inr ⟨hc, hk⟩

theorem released_once {n' : Nat} (he : intentAt ρ n id = some e) (hn : intentAt ρ (n + 1) id = none)
    (he' : intentAt ρ n' id = some e') (hn' : intentAt ρ (n' + 1) id = none)
    (hnonce : e'.nonce = e.nonce) : n = n' := by
  rcases Nat.lt_trichotomy n n' with hlt | heq | hlt
  · exact absurd hnonce (nonce_never_returns he hn hlt e' he')
  · exact heq
  · exact absurd hnonce.symm (nonce_never_returns he' hn' hlt e he)

/-- In every run of a Genesis installation, whatever attempts run at once or were cut off: an intent
leaves the ledger only in the order of `ReleaseOrder`; its kind never changes once it is set; it is
released once, by the path of its kind; and a release that reports success for a build has found the
intent and the receipt gone and the build settled. -/
theorem genesis_release_order (g : Genesis) (ρ : World.Execution { w with genesis := some g }) :
    (∀ n id e, (ρ.store n).queue.data.intents.lookup id = some e →
      (ρ.store (n + 1)).queue.data.intents.lookup id = none → ReleaseOrder ρ n id e) ∧
    (∀ n n' id e e', n ≤ n' → (ρ.store n).queue.data.intents.lookup id = some e →
      (ρ.store n').queue.data.intents.lookup id = some e' → e'.nonce = e.nonce →
      e.cleanupKind ≠ .unset → e'.cleanupKind = e.cleanupKind) ∧
    (∀ n id e, (ρ.store n).queue.data.intents.lookup id = some e →
      (ρ.store (n + 1)).queue.data.intents.lookup id = none →
      (∃ m k t, QueueCommit ρ n m k t .releaseReceiptedBuild id ∧ e.cleanupKind = .terminal ∨
        QueueCommit ρ n m k t .releaseRejected id ∧ e.cleanupKind = .rejected) ∧
      ∀ n' e', (ρ.store n').queue.data.intents.lookup id = some e' →
        (ρ.store (n' + 1)).queue.data.intents.lookup id = none → e'.nonce = e.nonce → n = n') ∧
    ∀ n t b, ρ.sends n t (.mark (.released b)) → b.annotations.queueIntent ≠ "" →
      (∃ k, k ≤ n ∧ (ρ.store k).queue.data.intents.lookup b.name = none) ∧
      (∃ k, k < n ∧ (ρ.store k).receipts.lookup
        (queueReceiptPrefix ++ b.annotations.queueIntent) = none) ∧
      ∃ k c, k < n ∧ (ρ.store k).builds.lookup b.name = some c ∧ c.uid = b.uid ∧
        c.annotations.queueReceiptSettledUID ≠ "" := by
  refine ⟨fun n id e he hn => release_order rfl he hn,
    fun n n' id e e' hle he he' hn => (intent_keeps hle he he' hn).cleanupKind,
    fun n id e he hn => ⟨release_path rfl he hn, fun n' e' he' hn' => released_once he hn he' hn'⟩,
    fun n t b hs hne => ?_⟩
  have hd : Released ρ n b := (sends_demanded ρ n t _ hs).resolve_left hne
  exact ⟨hd.intent, hd.receipt rfl, hd.settled rfl⟩

end KovaService.Safety
