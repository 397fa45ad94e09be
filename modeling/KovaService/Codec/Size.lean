import KovaService.Codec.Ledger
import KovaService.Ledger.Moves
import KovaService.Ledger.Receipt

/-!
How long encoded ledgers get.

A character takes at most six bytes in a string literal, and the characters of names, nonces, UIDs
and digests take one.  So each field has a bound, an entry has the sum of them, and a ledger of at
most as many entries as it was created for stays below the limit of its ConfigMap.
-/

namespace KovaService.Codec

open Lib Lib.Json Api Ledger

variable {s : ReservationState} {e : ActiveReservation} {k : String} {n : Nat} {cs : List Char}

def size (cs : List Char) : Nat := String.utf8Len cs

@[simp] theorem size_nil : size [] = 0 := rfl

@[simp] theorem size_cons (c : Char) (cs : List Char) : size (c :: cs) = c.utf8Size + size cs := by
  simp [size, String.utf8Len, Nat.add_comm]

@[simp] theorem size_append (cs ds : List Char) : size (cs ++ ds) = size cs + size ds :=
  String.utf8Len_append cs ds

theorem size_toList (s : String) : size s.toList = s.utf8ByteSize := by
  rw [size, ← String.utf8ByteSize_ofList, String.ofList_toList]

theorem length_le_size (cs : List Char) : cs.length ≤ size cs := by
  induction cs with
  | nil => simp
  | cons c cs ih =>
    have := c.utf8Size_pos
    simp only [List.length_cons, size_cons]
    omega

theorem size_escape (cs : List Char) : size (escape cs) ≤ 6 * cs.length := by
  induction cs with
  | nil => simp [escape]
  | cons c cs ih =>
    have hc : size (escapeChar c) ≤ 6 := escapeChar_size c
    have hsplit : escape (c :: cs) = escapeChar c ++ escape cs := by simp [escape]
    rw [hsplit, size_append, List.length_cons]
    omega

def plainChar (c : Char) : Bool := isUIDChar c || c == '.' || c == ':'

variable {c : Char}

theorem escapeChar_plain (h : plainChar c) : escapeChar c = [c] ∧ c.utf8Size = 1 := by
  have hall : ∀ n < 123, plainChar (Char.ofNat n) = true →
      escapeChar (Char.ofNat n) = [Char.ofNat n] ∧ (Char.ofNat n).utf8Size = 1 := by decide
  have hlt : c.toNat < 123 := by
    simp only [plainChar, isUIDChar, Bool.or_eq_true, Bool.and_eq_true, decide_eq_true_eq,
      beq_iff_eq] at h
    rcases h with (((((⟨-, h⟩ | ⟨-, h⟩) | ⟨-, h⟩) | rfl) | rfl) | rfl)
    · exact lt_of_le_of_lt (UInt32.le_iff_toNat_le.mp h) (by decide)
    · exact lt_of_le_of_lt (UInt32.le_iff_toNat_le.mp h) (by decide)
    · exact lt_of_le_of_lt (UInt32.le_iff_toNat_le.mp h) (by decide)
    · decide
    · decide
    · decide
  have hc : Char.ofNat c.toNat = c := Char.ofNat_toNat c
  exact hc ▸ hall c.toNat hlt (hc.symm ▸ h)

theorem escape_plain (h : cs.all plainChar) : escape cs = cs := by
  induction cs with
  | nil => rfl
  | cons c cs ih =>
    rw [List.all_cons, Bool.and_eq_true] at h
    have hsplit : escape (c :: cs) = escapeChar c ++ escape cs := by simp [escape]
    rw [hsplit, (escapeChar_plain h.1).1, ih h.2]
    rfl

def Short (s : String) (n : Nat) : Prop := size (escape s.toList) ≤ n

theorem short_empty (n : Nat) : Short "" n := by
  simp [Short, escape]

theorem short_plain {s : String} (h : s.toList.all plainChar) (hn : s.utf8ByteSize ≤ n) :
    Short s n := by
  rw [Short, escape_plain h, size_toList]
  exact hn

theorem short_bytes {s : String} (h : s.utf8ByteSize ≤ n) : Short s (6 * n) := by
  have h1 := size_escape s.toList
  have h2 := length_le_size s.toList
  rw [size_toList] at h2
  unfold Short
  omega

theorem short_runes {s : String} (h : s.length ≤ n) : Short s (6 * n) := by
  have h1 := size_escape s.toList
  rw [String.length_toList] at h1
  unfold Short
  omega

theorem all_plain_of_imp {p : Char → Bool} (h : cs.all p) (hp : ∀ c, p c → plainChar c) :
    cs.all plainChar := by
  simp only [List.all_eq_true] at h ⊢
  exact fun c hc => hp c (h c hc)

theorem plain_of_hex (h : isLowerHexDigit c) : plainChar c := by
  simp only [isLowerHexDigit, Bool.or_eq_true, Bool.and_eq_true, decide_eq_true_eq] at h
  simp only [plainChar, isUIDChar, Bool.or_eq_true, Bool.and_eq_true, decide_eq_true_eq]
  rcases h with h | h
  · exact .inl (.inl (.inl (.inl (.inl h))))
  · exact .inl (.inl (.inl (.inl (.inr ⟨h.1, h.2.trans (by decide)⟩))))

theorem short_hex {s : String} (h : lowerHex s n) : Short s n := by
  simp only [lowerHex, Bool.and_eq_true, beq_iff_eq] at h
  exact short_plain (all_plain_of_imp h.2 fun _ => plain_of_hex) h.1.le

theorem short_reservationHex {s : String} (h : validReservationHex s n) : Short s n := by
  simp only [validReservationHex, Bool.and_eq_true] at h
  exact short_hex h.1

theorem short_uid {s : String} (h : validReceiptUID s) : Short s 64 := by
  simp only [validReceiptUID, Bool.and_eq_true, decide_eq_true_eq] at h
  exact short_plain (all_plain_of_imp h.2 fun c hc => by simp [plainChar, hc]) h.1.2

theorem size_plain (h : cs.all plainChar) : size cs = cs.length := by
  induction cs with
  | nil => rfl
  | cons c cs ih =>
    rw [List.all_cons, Bool.and_eq_true] at h
    rw [size_cons, (escapeChar_plain h.1).2, ih h.2, List.length_cons]
    omega

theorem short_digest {s : String} (h : digestSHA256 s) : Short s 71 := by
  simp only [digestSHA256, Bool.and_eq_true, beq_iff_eq] at h
  obtain ⟨⟨hpre, hlen⟩, hhex⟩ := h
  have hsplit : s.toList = sha256Prefix.toList ++ s.toList.drop 7 := by
    rw [← hpre, List.take_append_drop]
  have hplain : s.toList.all plainChar := by
    rw [hsplit, List.all_append, all_plain_of_imp hhex fun _ => plain_of_hex, Bool.and_true]
    decide
  refine short_plain hplain ?_
  rw [← size_toList, size_plain hplain, hsplit, List.length_append, hlen]
  decide

theorem plain_of_dns (h : isDNSLabelChar c) : plainChar c := by
  simp only [isDNSLabelChar, Bool.or_eq_true] at h
  rcases h with (h | h) | h <;> simp [plainChar, isUIDChar, h]

theorem short_dns {s : String} (h : isDNS1123Subdomain s) : Short s 253 := by
  have hplain : s.toList.all plainChar := by
    refine List.all_eq_true.mpr fun c hc => ?_
    rcases isDNS1123Subdomain_chars h c hc with rfl | hc
    · decide
    · exact plain_of_dns hc
  simp only [isDNS1123Subdomain, Bool.and_eq_true, decide_eq_true_eq] at h
  exact short_plain hplain h.1

theorem size_quote (s : String) : size (quote s) = size (escape s.toList) + 2 := by
  have hq : ('"' : Char).utf8Size = 1 := by decide
  simp only [quote, List.cons_append, size_cons, size_append, hq, size_nil]
  omega

def memberSize (m : String × Value) : Nat := size (quote m.1) + size (print m.2) + 2

theorem size_members (ms : List (String × Value)) :
    size (printMembers ms) = 1 + (ms.map memberSize).sum := by
  induction ms with
  | nil => rfl
  | cons m ms ih =>
    obtain ⟨k, v⟩ := m
    have hc : (',' : Char).utf8Size = 1 := by decide
    have hd : (':' : Char).utf8Size = 1 := by decide
    simp only [printMembers, List.cons_append, size_cons, size_append, ih, List.map_cons,
      List.sum_cons, memberSize, hc, hd]
    omega

theorem size_obj (ms : List (String × Value)) :
    size (print (.obj ms)) ≤ 2 + (ms.map memberSize).sum := by
  match ms with
  | [] => decide
  | (k, v) :: ms =>
    have hb : ('{' : Char).utf8Size = 1 := by decide
    have hd : (':' : Char).utf8Size = 1 := by decide
    simp only [print, List.cons_append, size_cons, size_append, size_members, List.map_cons,
      List.sum_cons, memberSize, hb, hd]
    omega

def fieldSize : String × Option Value → Nat
  | (_, none) => 0
  | (k, some v) => memberSize (k, v)

abbrev Bounded (t : Fields) (bounds : List Nat) : Prop :=
  List.Forall₂ (fun f b => fieldSize f ≤ b) t bounds

theorem size_record {t : Fields} {bounds : List Nat} (h : Bounded t bounds) :
    size (print (.record t)) ≤ 2 + bounds.sum := by
  have hsum : ((present t).map memberSize).sum ≤ bounds.sum := by
    induction h with
    | nil => exact le_rfl
    | @cons f b t bounds hf _ ih =>
      obtain ⟨k, _ | v⟩ := f
      · exact ih.trans (Nat.le_add_left ..)
      · exact Nat.add_le_add hf ih
  exact (size_obj _).trans (Nat.add_le_add_left hsum 2)

theorem fieldSize_str {s : String} (h : Short s n) :
    fieldSize (k, some (.str s)) ≤ size (quote k) + n + 4 := by
  have hs := size_quote s
  unfold Short at h
  simp only [fieldSize, memberSize, print]
  omega

theorem fieldSize_nonEmpty {s : String} (h : Short s n) :
    fieldSize (k, nonEmpty s) ≤ size (quote k) + n + 4 := by
  unfold nonEmpty
  split
  · exact Nat.zero_le _
  · exact fieldSize_str h

theorem fieldSize_nonFalse {flag : Bool} : fieldSize (k, nonFalse flag) ≤ size (quote k) + 6 := by
  cases flag with
  | false => exact Nat.zero_le _
  | true => exact Nat.le_of_eq (Nat.add_assoc ..)

theorem size_decimal {d : Nat} (hd : 1 ≤ d) (h : n < 10 ^ d) : size (decimal n) ≤ d := by
  have hplain : (decimal n).all plainChar := by
    have := decimal_digits n
    simp only [List.all_eq_true] at this ⊢
    intro c hc
    have hdig := this c hc
    simp only [isDigit] at hdig
    simp [plainChar, isUIDChar, hdig]
  rw [size_plain hplain]
  unfold decimal
  split
  · exact hd
  · rw [List.length_map, List.length_reverse]
    exact Nat.digits_length_le_iff (by decide) n |>.mpr h

theorem fieldSize_int {n : Int} (d : Nat) (hd : 1 ≤ d) (h0 : 0 ≤ n) (h : n < 10 ^ d) :
    fieldSize (k, some (.int n)) ≤ size (quote k) + d + 2 := by
  obtain ⟨m, rfl⟩ := Int.eq_ofNat_of_zero_le h0
  have hp : size (print (.int m)) ≤ d := size_decimal (n := m) hd (by exact_mod_cast h)
  simp only [fieldSize, memberSize]
  omega

theorem fieldSize_nonZero (d : Nat) (hd : 1 ≤ d) (h : n < 10 ^ d) :
    fieldSize (k, nonZero n) ≤ size (quote k) + d + 2 := by
  unfold nonZero
  split
  · exact Nat.zero_le _
  · exact fieldSize_int d hd (by omega) (by exact_mod_cast h)

theorem fieldSize_nonNil {l : List String} (hl : l.length ≤ 1) (h : ∀ a ∈ l, Short a 32) :
    fieldSize (k, nonNil l) ≤ size (quote k) + 38 := by
  match l with
  | [] => exact Nat.zero_le _
  | [a] =>
    have ha := h a (by simp)
    have hq := size_quote a
    have hopen : ('[' : Char).utf8Size = 1 := by decide
    have hclose : (']' : Char).utf8Size = 1 := by decide
    unfold Short at ha
    simp only [nonNil, List.cons_ne_nil, if_false, fieldSize, memberSize, List.map_cons,
      List.map_nil, print, printElements, List.cons_append, size_cons, size_append, size_nil, hopen,
      hclose]
    omega
  | a :: b :: l => simp at hl

theorem size_map {α : Type} {f : α → Value} (m : Finmap fun _ : String => α) {bound : Nat}
    (h : ∀ k a, m.lookup k = some a → memberSize (k, f a) ≤ bound) :
    size (print (.obj (mapMembers f m))) ≤ 2 + m.keys.card * bound := by
  have hlen : ((mapMembers f m).map memberSize).length = m.keys.card := by
    rw [List.length_map, ← List.length_map (f := Prod.fst), keys_mapMembers, Finset.length_sort]
  have hsum : ((mapMembers f m).map memberSize).sum ≤ m.keys.card * bound := by
    rw [← hlen, ← smul_eq_mul]
    refine List.sum_le_card_nsmul _ _ fun x hx => ?_
    obtain ⟨⟨k, v⟩, hkv, rfl⟩ := List.mem_map.mp hx
    obtain ⟨a, ha, rfl⟩ := mem_mapMembers hkv
    exact h k a ha
  exact (size_obj _).trans (by omega)

/-- The fields of an entry that only Genesis mode sets. -/
structure ShortGenesis (e : ActiveReservation) : Prop where
  grantNonce : Short e.grantNonce 32
  grantObservedRV : Short e.grantObservedRV 1536
  grantReceiptUID : Short e.grantReceiptUID 64
  grantReceiptDigest : Short e.grantReceiptDigest 71
  podAttemptNonce : Short e.podAttemptNonce 32
  podTemplateDigest : Short e.podTemplateDigest 71
  podReceiptUID : Short e.podReceiptUID 64
  podReceiptDigest : Short e.podReceiptDigest 71

theorem shortGenesis_legacy (h : e.legacy) : ShortGenesis e := by
  simp only [ActiveReservation.legacy, Bool.and_eq_true, beq_iff_eq, Bool.not_eq_true'] at h
  obtain ⟨⟨⟨⟨⟨⟨⟨⟨⟨⟨h1, -⟩, h2⟩, h3⟩, h4⟩, -⟩, h5⟩, h6⟩, h7⟩, h8⟩, -⟩ := h
  refine ⟨?_, ?_, ?_, ?_, ?_, ?_, ?_, ?_⟩
  all_goals simp only [h1, h2, h3, h4, h5, h6, h7, h8]; exact short_empty _

theorem short_optional {s : String} (h : s ≠ "" → Short s n) : Short s n := by
  by_cases hs : s = ""
  · exact hs ▸ short_empty n
  · exact h hs

theorem shortGenesis_stages (hg : GrantStage e) (hp : PodStage e) :
    ShortGenesis e where
  grantNonce := short_reservationHex hg.nonce
  grantObservedRV := short_optional fun h => by
    have hv := hg.observed h
    simp only [validGrantObservedRV, safeEffectID, Bool.and_eq_true, decide_eq_true_eq] at hv
    exact short_bytes hv.1.2
  grantReceiptUID := short_optional fun h => short_uid (hg.receipt h).2.1
  grantReceiptDigest := short_optional fun h => short_digest (hg.receipt (mt hg.link.mp h)).2.2
  podAttemptNonce := short_optional fun h => short_reservationHex (hp.nonce h)
  podTemplateDigest := short_optional fun h => short_digest (hp.template h).2.1
  podReceiptUID := short_optional fun h => short_uid (hp.receipt h).2.1
  podReceiptDigest := short_optional fun h => short_digest (hp.receipt (mt hp.link.mp h)).2.2

theorem shortGenesis_valid (hv : s.Valid) (he : s.active.lookup k = some e) : ShortGenesis e := by
  rcases hv.version with h1 | h2
  · exact shortGenesis_legacy (hv.legacy h1 k e he)
  · obtain ⟨hg, hp⟩ := hv.genesis h2 k e he
    exact shortGenesis_stages (grantConsistent_iff.mp hg) (podConsistent_iff.mp hp)

theorem memberSize_reservation (hv : s.Valid) (he : s.active.lookup k = some e) :
    memberSize (k, marshalReservation e) ≤ 6000 := by
  have hw := hv.entry k e he
  simp only [ActiveReservation.wellFormed, maxReservationUIDBytes, maxRequesterRunes,
    Bool.and_eq_true, decide_eq_true_eq, List.all_eq_true] at hw
  obtain ⟨⟨⟨⟨⟨⟨⟨⟨⟨⟨-, hkey⟩, -⟩, -⟩, hname⟩, -⟩, hreq⟩, hlo⟩, hhi⟩, hlen⟩, hnonces⟩ := hw
  have hcap := capacity_bounds hv.capacity
  have hs := shortGenesis_valid hv he
  have hfence : e.grantFence.toNat < 10 ^ 20 := lt_trans e.grantFence.toNat_lt (by decide)
  have hfields : Bounded (reservationFields e) _ :=
    .cons (fieldSize_str (short_dns hname)) <|
    .cons (fieldSize_str (short_runes (of_decide_eq_true hreq))) <|
    .cons (fieldSize_int 5 (by decide) (by omega) (by omega)) <|
    .cons (fieldSize_nonEmpty hs.grantNonce) <|
    .cons (fieldSize_nonZero 20 (by decide) hfence) <|
    .cons (fieldSize_nonEmpty hs.grantObservedRV) <|
    .cons (fieldSize_nonEmpty hs.grantReceiptUID) <|
    .cons (fieldSize_nonEmpty hs.grantReceiptDigest) <|
    .cons fieldSize_nonFalse <|
    .cons (fieldSize_nonEmpty hs.podAttemptNonce) <|
    .cons (fieldSize_nonEmpty hs.podTemplateDigest) <|
    .cons (fieldSize_nonEmpty hs.podReceiptUID) <|
    .cons (fieldSize_nonEmpty hs.podReceiptDigest) <|
    .cons fieldSize_nonFalse <| .cons fieldSize_nonFalse <|
    .cons (fieldSize_nonNil hlen fun a ha => short_reservationHex (hnonces a ha)) .nil
  have hrecord : size (print (marshalReservation e)) ≤ 4460 :=
    (size_record hfields).trans (by decide)
  have hquote : size (quote k) ≤ 1538 := by
    have := short_bytes (of_decide_eq_true hkey)
    unfold Short at this
    rw [size_quote]
    omega
  simp only [memberSize]
  omega

theorem memberSize_intent {s : QueueState} (hv : s.Valid) {id : String} {e : Intent}
    (he : s.intents.lookup id = some e) (ht : e.createdAtUnix < 2 ^ 63) :
    memberSize (id, marshalIntent e) ≤ 736 := by
  have hw := hv.intent id e he
  simp only [Intent.wellFormed, Bool.and_eq_true, decide_eq_true_eq] at hw
  obtain ⟨⟨⟨⟨⟨-, hid⟩, hhash⟩, hdigest⟩, hnonce⟩, htime⟩ := hw
  have hl := hv.link id e he
  simp only [Intent.linkOk, Bool.and_eq_true, Bool.or_eq_true, beq_iff_eq] at hl
  obtain ⟨⟨⟨hlink, -⟩, hreceipt⟩, -⟩ := hl
  have huid : Short e.receiptUID 64 := short_optional fun h =>
    short_uid (hreceipt.resolve_left h).1
  have hdata : Short e.receiptDigest 71 := short_optional fun h => by
    have hne : e.receiptUID ≠ "" := fun hu => h (by simpa [hu] using hlink)
    exact short_digest (hreceipt.resolve_left hne).2
  have hkind : Short (CleanupKind.text e.cleanupKind) 8 := by
    cases e.cleanupKind <;> unfold Short <;> decide
  have hfields : Bounded (intentFields e) _ :=
    .cons (fieldSize_str (short_hex hhash)) <| .cons (fieldSize_str (short_hex hdigest)) <|
    .cons (fieldSize_str (short_hex hnonce)) <|
    .cons (fieldSize_int 19 (by decide) (by omega) (by omega)) <|
    .cons (fieldSize_nonEmpty huid) <| .cons (fieldSize_nonEmpty hdata) <|
    .cons (fieldSize_nonEmpty hkind) .nil
  have hrecord : size (print (marshalIntent e)) ≤ 479 := (size_record hfields).trans (by decide)
  have hquote : size (quote id) ≤ 255 := by
    have := short_dns hid
    unfold Short at this
    rw [size_quote]
    omega
  simp only [memberSize]
  omega

theorem size_reservations (h : s.validate = .ok ()) :
    size (print (marshalReservations s)) ≤ 8192 + 6000 * s.active.keys.card := by
  have hv := ReservationState.validate_ok h
  have hcap := capacity_bounds hv.capacity
  have hversion := hv.version
  have hfence : s.fence.toNat < 10 ^ 20 := lt_trans s.fence.toNat_lt (by decide)
  have hhash : Short s.lastGrantedRequesterHash 64 := short_optional fun hne =>
    short_reservationHex (hv.lastGranted.resolve_left hne)
  have hmap := size_map s.active (f := marshalReservation) fun k e he =>
    memberSize_reservation hv he
  have hactive : fieldSize ("active", some (.obj (mapMembers marshalReservation s.active))) ≤
      12 + s.active.keys.card * 6000 := by
    have hq : size (quote "active") = 8 := by decide
    simp only [fieldSize, memberSize, hq]
    omega
  have hfields : Bounded (stateFields s) [12, 29, 14, 22, 20, 94, 12 + s.active.keys.card * 6000] :=
    .cons (fieldSize_int 1 (by decide) (by omega) (by omega)) <|
    .cons (fieldSize_int 20 (by decide) (by omega) (by exact_mod_cast hfence)) <|
    .cons (fieldSize_int 3 (by decide) (by omega) (by omega)) <|
    .cons (fieldSize_int 3 (by decide) (by omega) (by omega)) <|
    .cons (fieldSize_int 5 (by decide) (by omega) (by omega)) <|
    .cons (fieldSize_nonEmpty hhash) <| .cons hactive .nil
  have hrecord := size_record hfields
  simp only [List.sum_cons, List.sum_nil] at hrecord
  unfold marshalReservations
  omega

theorem size_queue {s : QueueState} (h : s.validate = .ok ())
    (ht : ∀ id e, s.intents.lookup id = some e → e.createdAtUnix < 2 ^ 63) :
    size (print (marshalQueue s)) ≤ 4096 + 736 * s.intents.keys.card := by
  have hv := QueueState.validate_ok h
  have hlim := queueLimits_bounds hv.limits
  have hversion := hv.version
  have hmap := size_map s.intents (f := marshalIntent) fun id e he =>
    memberSize_intent hv he (ht id e he)
  have hintents : fieldSize ("intents", some (.obj (mapMembers marshalIntent s.intents))) ≤
      13 + s.intents.keys.card * 736 := by
    have hq : size (quote "intents") = 9 := by decide
    simp only [fieldSize, memberSize, hq]
    omega
  have hfields : Bounded (queueFields s) [12, 19, 22, 13 + s.intents.keys.card * 736] :=
    .cons (fieldSize_int 1 (by decide) (by omega) (by omega)) <|
    .cons (fieldSize_int 4 (by decide) (by omega) (by omega)) <|
    .cons (fieldSize_int 4 (by decide) (by omega) (by omega)) <| .cons hintents .nil
  have hrecord := size_record hfields
  simp only [List.sum_cons, List.sum_nil] at hrecord
  unfold marshalQueue
  omega

theorem utf8ByteSize_ofList (cs : List Char) : (String.ofList cs).utf8ByteSize = size cs :=
  String.utf8ByteSize_ofList cs

theorem keysAndSize_single {key : String} {limit : Int} (hpos : 0 < size cs)
    (hle : (size cs : Int) ≤ limit) :
    invalidKeysOrSize (.single key (String.ofList cs)) key limit = false := by
  have hget : (ConfigMapData.single key (String.ofList cs)).get key = String.ofList cs := by
    simp [ConfigMapData.single, ConfigMapData.get]
  simp only [invalidKeysOrSize, hget, utf8ByteSize_ofList]
  simp only [ConfigMapData.single, List.length_cons, List.length_nil, Bool.or_eq_false_iff,
    decide_eq_false_iff_not, not_lt, gt_iff_lt, hle, and_true]
  refine ⟨⟨rfl, ?_⟩, rfl⟩
  simpa using hpos.ne'

theorem size_obj_pos (ms : List (String × Value)) : 0 < size (print (.obj ms)) := by
  obtain ⟨c, cs, h, -⟩ := print_head (.obj ms)
  have := c.utf8Size_pos
  rw [h, size_cons]
  omega

theorem size_reservations_le (h : s.validate = .ok ()) :
    (size (print (marshalReservations s)) : Int) ≤ maxReservationLedgerBytes := by
  have hv := ReservationState.validate_ok h
  have hcap := capacity_bounds hv.capacity
  have hjobs := hv.jobs
  have hsize := size_reservations h
  unfold maxReservationLedgerBytes
  omega

theorem size_queue_le {s : QueueState} (h : s.validate = .ok ())
    (ht : ∀ id e, s.intents.lookup id = some e → e.createdAtUnix < 2 ^ 63) :
    (size (print (marshalQueue s)) : Int) ≤ maxQueueLedgerBytes := by
  have hv := QueueState.validate_ok h
  have hlim := queueLimits_bounds hv.limits
  have hglobal := hv.global
  have hsize := size_queue h ht
  unfold maxQueueLedgerBytes
  omega

theorem encodeReservations_ok (h : s.validate = .ok ()) :
    encodeReservations s = .ok (String.ofList (print (marshalReservations s))) := by
  unfold encodeReservations
  rw [h]
  simp only [utf8ByteSize_ofList]
  exact if_neg (not_lt.mpr (size_reservations_le h))

theorem encodeState_ok {s : QueueState} (h : s.validate = .ok ())
    (ht : ∀ id e, s.intents.lookup id = some e → e.createdAtUnix < 2 ^ 63) :
    encodeState s = .ok (String.ofList (print (marshalQueue s))) := by
  unfold encodeState
  rw [h]
  simp only [utf8ByteSize_ofList]
  exact if_neg (not_lt.mpr (size_queue_le h ht))

theorem reservations_readable (h : s.validate = .ok ()) :
    invalidKeysOrSize (.single reservationDataKey (String.ofList (print (marshalReservations s))))
      reservationDataKey maxReservationLedgerBytes = false :=
  keysAndSize_single (size_obj_pos _) (size_reservations_le h)

theorem queue_readable {s : QueueState} (h : s.validate = .ok ())
    (ht : ∀ id e, s.intents.lookup id = some e → e.createdAtUnix < 2 ^ 63) :
    invalidKeysOrSize (.single queueDataKey (String.ofList (print (marshalQueue s))))
      queueDataKey maxQueueLedgerBytes = false :=
  keysAndSize_single (size_obj_pos _) (size_queue_le h ht)

/-- An accepted active ledger fits: its text is bounded, the encoder returns it, and the size check
of the readers lets it pass. -/
structure ReservationsFit (s : ReservationState) : Prop where
  bytes : size (print (marshalReservations s)) ≤ 8192 + 6000 * s.active.keys.card
  encoded : encodeReservations s = .ok (String.ofList (print (marshalReservations s)))
  readable : invalidKeysOrSize
    (.single reservationDataKey (String.ofList (print (marshalReservations s))))
    reservationDataKey maxReservationLedgerBytes = false

structure QueueFits (s : QueueState) : Prop where
  bytes : size (print (marshalQueue s)) ≤ 4096 + 736 * s.intents.keys.card
  encoded : encodeState s = .ok (String.ofList (print (marshalQueue s)))
  readable : invalidKeysOrSize (.single queueDataKey (String.ofList (print (marshalQueue s))))
    queueDataKey maxQueueLedgerBytes = false

/-- Every accepted state fits; `CreatedAtUnix` is an `int64`. -/
theorem encoded_ledgers_fit :
    (∀ s : ReservationState, s.validate = .ok () → ReservationsFit s) ∧
    ∀ s : QueueState, s.validate = .ok () →
      (∀ id e, s.intents.lookup id = some e → e.createdAtUnix < 2 ^ 63) → QueueFits s :=
  ⟨fun _ h => ⟨size_reservations h, encodeReservations_ok h, reservations_readable h⟩,
    fun _ h ht => ⟨size_queue h ht, encodeState_ok h ht, queue_readable h ht⟩⟩

end KovaService.Codec
