import KovaService.Drain.Objects
import KovaService.Disposal.Plan
import KovaService.Lib.Contract

/-!
The build dispositions of an authorization: `validateDispositions` of `disposal.go`.

The flags of the receipts are filled by two nested loops.  `Marked` says what they mean at any point
of both: the receipts linked so far, each of them once.
-/

namespace KovaService.Disposal

open Api Lib

structure BuildDisposition where
  buildName : String
  buildUID : String
  podUID : String
  receiptLinks : List Int
  outcome : String
  resultRecordDigest : String
  approvalDigest : String
  neverReplay : Bool

def errUnqualified : String := "unqualified external disposal record"

def maxDispositions : Nat := 2048

def kindAt (refs : List Drain.ReceiptRef) (index : Int) : String :=
  (refs[index.toNat]?.map (·.kind)).getD ""

structure LinkScan where
  used : List Bool
  kinds : List String := []
  previous : Int := -1

def linkReceipt (refs : List Drain.ReceiptRef) (s : LinkScan) (index : Int) :
    Except String LinkScan :=
  if index ≤ s.previous || index < 0 || index ≥ refs.length || s.used.getD index.toNat false ||
      s.kinds.contains (kindAt refs index) then
    .error errUnqualified
  else
    .ok { used := s.used.set index.toNat true, kinds := s.kinds ++ [kindAt refs index]
          previous := index }

structure Assignment where
  used : List Bool
  buildUIDs : List String := []
  podUIDs : List String := []
  previous : Option String := none

def recordUID (seen : List String) (uid : String) : List String :=
  if uid == "" then seen else seen ++ [uid]

/-- The checks of one disposition before its outcome. -/
def BuildDisposition.identified (d : BuildDisposition) (s : Assignment) : Bool :=
  isDNS1123Subdomain d.buildName && (s.previous.all fun name => decide (name < d.buildName)) &&
    d.neverReplay && d.receiptLinks.length != 0 && d.receiptLinks.length ≤ 3 &&
    (d.buildUID == "" || safeID d.buildUID maxIDBytes) &&
    (d.podUID == "" || safeID d.podUID maxIDBytes) && (d.podUID == "" || d.buildUID != "") &&
    !(d.buildUID != "" && s.buildUIDs.contains d.buildUID) &&
    !(d.podUID != "" && s.podUIDs.contains d.podUID)

def BuildDisposition.decided (d : BuildDisposition) : Bool :=
  match d.outcome with
  | "terminal-result" =>
    d.buildUID != "" && d.podUID != "" && digestSHA256 d.resultRecordDigest && d.approvalDigest == ""
  | "approved-unknown-discard" => digestSHA256 d.approvalDigest && d.resultRecordDigest == ""
  | _ => false

def assign (refs : List Drain.ReceiptRef) (s : Assignment) (d : BuildDisposition) :
    Except String Assignment :=
  if !d.identified s || !d.decided then .error errUnqualified
  else do
    let links ← d.receiptLinks.foldlM (linkReceipt refs) { used := s.used }
    pure
      { used := links.used, buildUIDs := recordUID s.buildUIDs d.buildUID
        podUIDs := recordUID s.podUIDs d.podUID, previous := some d.buildName }

def validateDispositions (refs : List Drain.ReceiptRef) (dispositions : List BuildDisposition) :
    Except String Unit :=
  if dispositions.length == 0 || dispositions.length > maxDispositions ||
      dispositions.length > refs.length then
    .error errUnqualified
  else do
    let s ← dispositions.foldlM (assign refs) { used := List.replicate refs.length false }
    if s.used.all id then .ok () else .error errUnqualified

variable {refs : List Drain.ReceiptRef} {linked : List Int} {used : List Bool}

/-- The flags of the receipts that these indices link, each once. -/
structure Marked (n : Nat) (linked : List Int) (used : List Bool) : Prop where
  length : used.length = n
  nodup : linked.Nodup
  bound : ∀ x ∈ linked, 0 ≤ x ∧ x < n
  flag : ∀ k : Nat, used.getD k false ↔ (k : Int) ∈ linked

variable {n : Nat}

theorem marked_replicate (n : Nat) : Marked n [] (List.replicate n false) where
  length := List.length_replicate
  nodup := List.nodup_nil
  bound := by simp
  flag := by
    intro k
    rw [List.getD_eq_getElem?_getD, List.getElem?_replicate]
    split <;> simp

theorem Marked.link (h : Marked n linked used) {x : Int} (h₀ : 0 ≤ x) (hn : x < n)
    (hf : used.getD x.toNat false = false) : Marked n (linked ++ [x]) (used.set x.toNat true) := by
  have hx : (x.toNat : Int) = x := Int.toNat_of_nonneg h₀
  have hnew : x ∉ linked := by
    rw [← hx, ← h.flag, hf]
    exact Bool.false_ne_true
  refine ⟨by rw [List.length_set, h.length], ?_, ?_, fun k => ?_⟩
  · exact List.nodup_append.mpr ⟨h.nodup, List.nodup_singleton x, by
      rintro a ha _ hb rfl
      exact hnew (List.mem_singleton.mp hb ▸ ha)⟩
  · intro y hy
    rcases List.mem_append.mp hy with hy | hy
    · exact h.bound y hy
    · rw [List.mem_singleton.mp hy]
      exact ⟨h₀, hn⟩
  · rw [List.mem_append, ← h.flag, List.mem_singleton, List.getD_eq_getElem?_getD,
      List.getD_eq_getElem?_getD, List.getElem?_set]
    have hlt : x.toNat < used.length := by
      have := h.length
      omega
    split
    · next hk => simp [hlt, ← hk, hx]
    · next hk =>
      have hne : (k : Int) ≠ x := by omega
      simp [hne]

theorem Marked.partition (h : Marked n linked used) (hall : used.all id) :
    linked.Perm ((List.range n).map Nat.cast) := by
  refine (List.perm_ext_iff_of_nodup h.nodup (List.nodup_range.map Nat.cast_injective)).mpr ?_
  intro x
  rw [List.mem_map]
  constructor
  · intro hx
    obtain ⟨h₀, hn⟩ := h.bound x hx
    exact ⟨x.toNat, List.mem_range.mpr (by omega), Int.toNat_of_nonneg h₀⟩
  · rintro ⟨k, hk, rfl⟩
    have hlt : k < used.length := by rw [h.length]; exact List.mem_range.mp hk
    rw [← h.flag, List.getD_eq_getElem?_getD, List.getElem?_eq_getElem hlt]
    exact List.all_eq_true.mp hall _ (List.getElem_mem hlt)

structure Linked (refs : List Drain.ReceiptRef) (before front : List Int) (s : LinkScan) : Prop where
  marked : Marked refs.length (before ++ front) s.used
  increasing : front.Pairwise (· < ·)
  previous : ∀ x ∈ front, x ≤ s.previous
  kinds : s.kinds = front.map (kindAt refs)
  distinct : s.kinds.Nodup

theorem linkReceipt_linked {before front : List Int} {s s' : LinkScan} {x : Int}
    (hi : Linked refs before front s) (h : linkReceipt refs s x = .ok s') :
    Linked refs before (front ++ [x]) s' := by
  unfold linkReceipt at h
  split_ifs at h with hc
  cases h
  simp only [Bool.or_eq_true, decide_eq_true_eq, not_or, not_le, not_lt, ge_iff_le,
    Bool.not_eq_true, List.contains_eq_mem] at hc
  obtain ⟨⟨⟨⟨hprev, h₀⟩, hn⟩, hflag⟩, hkind⟩ := hc
  have hlt : ∀ y ∈ front, y < x := fun y hy => (hi.previous y hy).trans_lt hprev
  refine ⟨?_, ?_, ?_, ?_, ?_⟩
  · rw [← List.append_assoc]
    exact hi.marked.link h₀ hn hflag
  · exact List.pairwise_append.mpr ⟨hi.increasing, List.pairwise_singleton _ _, by simpa using hlt⟩
  · intro y hy
    rcases List.mem_append.mp hy with hy | hy
    · exact (hlt y hy).le
    · exact (List.mem_singleton.mp hy).le
  · rw [hi.kinds, List.map_append]
    rfl
  · refine List.nodup_append.mpr ⟨hi.distinct, List.nodup_singleton _, ?_⟩
    rintro a ha _ hb rfl
    exact hkind (List.mem_singleton.mp hb ▸ ha)

/-- The links of a disposition: at least one, increasing, at most one of each kind. -/
def LinksOnce (refs : List Drain.ReceiptRef) (d : BuildDisposition) : Prop :=
  d.receiptLinks ≠ [] ∧ d.receiptLinks.Pairwise (· < ·) ∧
    (d.receiptLinks.map (kindAt refs)).Nodup

def present (uids : List String) : List String := uids.filter (· != "")

theorem recordUID_present {uids : List String} {uid : String} (hn : (present uids).Nodup)
    (h : ¬ (uid ≠ "" ∧ uid ∈ present uids)) :
    recordUID (present uids) uid = present (uids ++ [uid]) ∧ (present (uids ++ [uid])).Nodup := by
  unfold recordUID present at *
  by_cases hu : uid = ""
  · simpa [hu] using hn
  · simp only [List.filter_append]
    refine ⟨by simp [hu], List.nodup_append.mpr ⟨hn, by simp [hu], ?_⟩⟩
    rintro a ha _ hb rfl
    have hau : a = uid := by simpa [hu] using hb
    exact h ⟨hu, hau ▸ ha⟩

structure Assigned (refs : List Drain.ReceiptRef) (front : List BuildDisposition) (s : Assignment) :
    Prop where
  marked : Marked refs.length (front.flatMap (·.receiptLinks)) s.used
  links : ∀ d ∈ front, LinksOnce refs d
  names : Increasing (· < ·) (front.map (·.buildName)) s.previous
  builds : s.buildUIDs = present (front.map (·.buildUID))
  pods : s.podUIDs = present (front.map (·.podUID))
  distinct : s.buildUIDs.Nodup ∧ s.podUIDs.Nodup

theorem assign_assigned {front : List BuildDisposition} {s s' : Assignment} {d : BuildDisposition}
    (hi : Assigned refs front s) (h : assign refs s d = .ok s') :
    Assigned refs (front ++ [d]) s' := by
  unfold assign at h
  split_ifs at h with hc
  simp only [Bool.or_eq_true, Bool.not_eq_true', not_or, Bool.not_eq_false] at hc
  have hd := hc.1
  simp only [BuildDisposition.identified, Bool.and_eq_true, Bool.not_eq_true',
    Bool.and_eq_false_imp, bne_iff_ne, ne_eq, List.contains_eq_mem, decide_eq_false_iff_not,
    List.length_eq_zero_iff, Option.all_eq_true, decide_eq_true_eq] at hd
  obtain ⟨⟨⟨⟨⟨⟨⟨⟨⟨-, hname⟩, -⟩, hlinks⟩, -⟩, -⟩, -⟩, -⟩, hbuild⟩, hpod⟩ := hd
  obtain ⟨links, hl, h⟩ := bind_ok h
  cases h
  have hlinked : Linked refs (front.flatMap (·.receiptLinks)) d.receiptLinks links :=
    foldlM_invariant (Linked refs (front.flatMap (·.receiptLinks)))
      (fun _ _ _ _ => linkReceipt_linked)
      ⟨by simpa using hi.marked, List.Pairwise.nil, by simp, rfl, List.nodup_nil⟩ hl
  rw [hi.builds] at hbuild
  rw [hi.pods] at hpod
  have hb := recordUID_present (hi.builds ▸ hi.distinct.1) fun hu => hbuild hu.1 hu.2
  have hp := recordUID_present (hi.pods ▸ hi.distinct.2) fun hu => hpod hu.1 hu.2
  refine ⟨?_, ?_, ?_, ?_, ?_, ?_⟩
  · simpa using hlinked.marked
  · intro d' hd'
    rcases List.mem_append.mp hd' with hd' | hd'
    · exact hi.links d' hd'
    · rw [List.mem_singleton.mp hd']
      exact ⟨hlinks, hlinked.increasing, hlinked.kinds ▸ hlinked.distinct⟩
  · rw [List.map_append]
    exact hi.names.snoc hname
  · simpa [hi.builds] using hb.1
  · simpa [hi.pods] using hp.1
  · simpa [hi.builds, hi.pods, hb.1, hp.1] using ⟨hb.2, hp.2⟩

/-- The links of accepted dispositions partition the receipts. -/
theorem validateDispositions_partition {dispositions : List BuildDisposition}
    (h : validateDispositions refs dispositions = .ok ()) :
    (dispositions.flatMap (·.receiptLinks)).Perm ((List.range refs.length).map Nat.cast) ∧
      (∀ d ∈ dispositions, LinksOnce refs d) ∧
      (dispositions.map (·.buildName)).Pairwise (· < ·) ∧
      (present (dispositions.map (·.buildUID))).Nodup ∧
      (present (dispositions.map (·.podUID))).Nodup := by
  unfold validateDispositions at h
  split_ifs at h
  obtain ⟨s, hs, h⟩ := bind_ok h
  split_ifs at h with hall
  have hi : Assigned refs dispositions s :=
    foldlM_invariant (Assigned refs) (fun _ _ _ _ => assign_assigned)
      ⟨by simpa using marked_replicate _, by simp, ⟨List.Pairwise.nil, by simp⟩, rfl, rfl, by simp⟩ hs
  exact ⟨hi.marked.partition hall, hi.links, hi.names.sorted, hi.builds ▸ hi.distinct.1,
    hi.pods ▸ hi.distinct.2⟩

def sampleRefs : List Drain.ReceiptRef :=
  ["grant", "queue", "queue"].map fun kind =>
    { kind := kind, namespaceName := "kova-receipts", name := kind, uid := kind, dataDigest := "" }

def sampleDisposition (build : String) (links : List Int) : BuildDisposition where
  buildName := build
  buildUID := build
  podUID := ""
  receiptLinks := links
  outcome := "approved-unknown-discard"
  resultRecordDigest := ""
  approvalDigest := "sha256:" ++ String.ofList (List.replicate 64 '0')
  neverReplay := true

theorem sampleDisposition_partition :
    validateDispositions sampleRefs [sampleDisposition "b1" [0, 2], sampleDisposition "b2" [1]] =
        .ok () ∧
      ([sampleDisposition "b1" [0, 2], sampleDisposition "b2" [1]].flatMap (·.receiptLinks)).Perm
        ((List.range 3).map Nat.cast) :=
  ⟨by decide +kernel, (@validateDispositions_partition sampleRefs _ (by decide +kernel)).1⟩

end KovaService.Disposal
