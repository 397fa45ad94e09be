import KovaService.Archive.Member

/-!
What a run over an archive transfers, and the rules for the programs of a run.

`transferred` adds up what has been read from members and written to files.  A careful program asks
for no more than the budget has left plus one byte, performs no operation that wraps around, and
makes only links that have passed the check for their member.
-/

namespace KovaService.Archive

open Lib Lib.Path Exec

/-- A file and what `zip.OpenReader` makes of it. -/
structure ArchiveFile where
  bytes : List UInt8
  opened : Except Err (List Member)

def Returns {α : Type} (p : Work α) (tr : History) (r : Except Err α) : Prop :=
  (p.run.run ()).Ends tr (r, ())

structure Transfer where
  read : Nat
  written : Nat
  copies : List (Member × Nat)

def Transfer.note (t : Transfer) : Event Request Answer → Transfer
  | ⟨.copy m _, (c : Copied _)⟩ =>
    ⟨t.read + c.read, t.written + c.written, t.copies ++ [(m, c.written)]⟩
  | ⟨.readAll _ _, (r : ReadText _)⟩ => { t with read := t.read + textSize r.text }
  | ⟨.symlink target _, _⟩ => { t with written := t.written + textSize target }
  | _ => t

def transferred (h : History) : Transfer := h.foldl Transfer.note ⟨0, 0, []⟩

@[simp] theorem transferred_append (h : History) (e : Event Request Answer) :
    transferred (h ++ [e]) = (transferred h).note e := by
  simp [transferred]

def Careful (b : Nat) (zip : ArchiveFile) (h : History) : Request → Prop
  | .arith op => op.Exact
  | .copy _ limit => (transferred h).read + limit.toNat ≤ b + 1 ∧
      (transferred h).written + limit.toNat ≤ b + 1
  | .readAll _ limit => (transferred h).read + limit.toNat ≤ b + 1
  | .symlink target path => (transferred h).written + textSize target ≤ b ∧
      ∃ files m text, zip.opened = .ok files ∧ m ∈ files ∧ m.isSymlink ∧ path ≠ [] ∧
        validateBuildArchivePath m.name = .ok path ∧
        resolveArchiveSymlinkTarget path text = .ok target
  | _ => True

def Request.isQuiet : Request → Bool
  | .arith _ | .copy _ _ | .readAll _ _ | .symlink _ _ => false
  | _ => true

variable {q : Request} {b : Nat} {zip : ArchiveFile} {h : History} {t : Transfer}

theorem careful_quiet (hq : q.isQuiet) : Careful b zip h q := by
  cases q <;> first | exact trivial | cases hq

theorem note_quiet (hq : q.isQuiet) (r : Answer q) : t.note ⟨q, r⟩ = t := by
  cases q <;> first | rfl | cases hq

variable {α β : Type}

/-- Every request of the program is careful, and a result of it satisfies `Post`. -/
abbrev Meets (b : Nat) (zip : ArchiveFile) (p : Work α) (h : History)
    (Post : α → History → Prop) : Prop :=
  Guarded (Careful b zip) p h () (fun a h' _ => Post a h') fun _ _ => True

variable {Post : α → History → Prop}

theorem Returns.post {p : Work α} {tr : History} {a : α} (h : Returns p tr (.ok a))
    (hp : Meets b zip p [] Post) : Post a tr := by
  have := Prog.Guarded.ended hp h
  rwa [List.nil_append] at this

theorem Meets.issued {p : Work α} {tr : History} (hp : Meets b zip p [] Post)
    (h : (p.run.run ()).Plays tr) {e : Event Request Answer} (he : e ∈ tr) :
    ∃ front, Careful b zip front e.1 := by
  obtain ⟨front, rest, rfl⟩ := List.mem_iff_append.mp he
  have hplays : (p.run.run ()).Plays ((front ++ [e]) ++ rest) := by
    simpa using h
  exact ⟨_, Prog.Guarded.issued hp hplays.of_append⟩

theorem Meets.bounded {p : Work α} {tr : History} (hp : Meets b zip p [] Post)
    (h : (p.run.run ()).Plays tr) :
    (transferred tr).read ≤ b + 1 ∧ (transferred tr).written ≤ b + 1 := by
  induction tr using List.reverseRecOn with
  | nil => exact ⟨Nat.zero_le _, Nat.zero_le _⟩
  | append_singleton tr e ih =>
    have hG := Prog.Guarded.issued hp h
    rw [List.nil_append] at hG
    have ih := ih h.of_append
    rw [transferred_append]
    obtain ⟨q, r⟩ := e
    cases q with
    | copy m limit =>
      have := (r : Copied limit).read_le
      have := (r : Copied limit).written_le
      have hG : (transferred tr).read + limit.toNat ≤ b + 1 ∧
        (transferred tr).written + limit.toNat ≤ b + 1 := hG
      change (transferred tr).read + (r : Copied limit).read ≤ b + 1 ∧
        (transferred tr).written + (r : Copied limit).written ≤ b + 1
      omega
    | readAll m limit =>
      have := (r : ReadText limit).size_le
      have hG : (transferred tr).read + limit.toNat ≤ b + 1 := hG
      change (transferred tr).read + textSize (r : ReadText limit).text ≤ b + 1 ∧
        (transferred tr).written ≤ b + 1
      omega
    | symlink target path =>
      have hG : (transferred tr).written + textSize target ≤ b := hG.1
      change (transferred tr).read ≤ b + 1 ∧ (transferred tr).written + textSize target ≤ b + 1
      omega
    | _ => exact ih

theorem meets_pure {a : α} (hp : Post a h) : Meets b zip (pure a) h Post := hp

theorem meets_bind {p : Work β} {f : β → Work α} {Mid : β → History → Prop}
    (hp : Meets b zip p h Mid) (hf : ∀ a h', Mid a h' → Meets b zip (f a) h' Post) :
    Meets b zip (p >>= f) h Post :=
  Guarded.andThen hp fun a h' _ hm => hf a h' hm

theorem meets_ofExcept {x : Except Err β} {f : β → Work α}
    (hp : ∀ a, x = .ok a → Meets b zip (f a) h Post) : Meets b zip (ofExcept x >>= f) h Post := by
  cases x with
  | ok a => exact hp a rfl
  | error e => exact trivial

theorem meets_failIf {c : Bool} {e : Err} {f : Unit → Work α}
    (hp : c = false → Meets b zip (f ()) h Post) : Meets b zip (failIf c e >>= f) h Post :=
  guarded_unless trivial hp

theorem meets_orFail {x : Option Err} {f : Unit → Work α}
    (hp : x = none → Meets b zip (f ()) h Post) : Meets b zip (orFail x >>= f) h Post := by
  cases x with
  | none => exact hp rfl
  | some e => exact trivial

theorem meets_foldlM {τ : Type} {l : List Member} {f : τ → Member → Work τ} {t : τ}
    (I : List Member → τ → History → Prop)
    (hf : ∀ front m rest, l = front ++ m :: rest → ∀ t h, I front t h →
      Meets b zip (f t m) h (I (front ++ [m]))) (h₀ : I [] t h) :
    Meets b zip (l.foldlM f t) h (I l) :=
  guarded_foldlM (fun front t h _ => I front t h)
    (fun front m rest hl t h _ => hf front m rest hl t h) h₀

theorem meets_request {f : Answer q → Work α} (hq : Careful b zip h q)
    (hp : ∀ r, Meets b zip (f r) (h ++ [⟨q, r⟩]) Post) : Meets b zip (ask q >>= f) h Post :=
  runs_request hq hp

theorem meets_quiet (hq : q.isQuiet) {f : Answer q → Work α}
    (hp : ∀ r h', transferred h' = transferred h → Meets b zip (f r) h' Post) :
    Meets b zip (ask q >>= f) h Post :=
  meets_request (careful_quiet hq) fun r => hp r _ (by rw [transferred_append, note_quiet hq])

theorem meets_arith {op : Arith} {x : β} {f : β → Work α} (hop : op.Exact)
    (hp : ∀ h', transferred h' = transferred h → Meets b zip (f x) h' Post) :
    Meets b zip ((do let _ ← ask (.arith op); pure x : Work β) >>= f) h Post :=
  runs_request (Q := Request) hop fun _ => hp _ (transferred_append h _)

variable {f : Nat → Work α} {x y : Nat}

theorem meets_sub64 (hle : y ≤ x) (hx : x < 2 ^ 64)
    (hp : ∀ h', transferred h' = transferred h → Meets b zip (f (x - y)) h' Post) :
    Meets b zip (sub64 x y >>= f) h Post := by
  have exact_sub : (2 ^ 64 + x - y) % 2 ^ 64 = x - y := by omega
  rw [sub64, exact_sub]
  exact meets_arith ⟨hle, hx⟩ hp

theorem meets_add64 (hlt : x + y < 2 ^ 64)
    (hp : ∀ h', transferred h' = transferred h → Meets b zip (f (x + y)) h' Post) :
    Meets b zip (add64 x y >>= f) h Post := by
  rw [add64, Nat.mod_eq_of_lt hlt]
  exact meets_arith hlt hp

theorem meets_add64_last {Post : Nat → History → Prop} (hlt : x + y < 2 ^ 64)
    (hp : ∀ h', transferred h' = transferred h → Post (x + y) h') :
    Meets b zip (add64 x y) h Post := by
  rw [add64, Nat.mod_eq_of_lt hlt]
  exact runs_request (Q := Request) hlt fun _ => hp _ (transferred_append h _)

theorem meets_toInt64 {f : Int → Work α} (hlt : x < 2 ^ 63)
    (hp : ∀ h', transferred h' = transferred h → Meets b zip (f x) h' Post) :
    Meets b zip (toInt64 x >>= f) h Post := by
  rw [toInt64, Bytes.int64_eq (by omega) (by omega)]
  exact meets_arith hlt hp

theorem meets_addInt64 {x y : Int} {f : Int → Work α} (h₀ : -(2 ^ 63) ≤ x + y) (h₁ : x + y < 2 ^ 63)
    (hp : ∀ h', transferred h' = transferred h → Meets b zip (f (x + y)) h' Post) :
    Meets b zip (addInt64 x y >>= f) h Post := by
  rw [addInt64, Bytes.int64_eq h₀ h₁]
  exact meets_arith ⟨h₀, h₁⟩ hp

theorem meets_toUInt64 (hlt : x < 2 ^ 64)
    (hp : ∀ h', transferred h' = transferred h → Meets b zip (f x) h' Post) :
    Meets b zip (toUInt64 x >>= f) h Post := by
  have exact_conv : ((x : Int) % 2 ^ 64).toNat = x := by omega
  rw [toUInt64, exact_conv]
  exact meets_arith ⟨Int.natCast_nonneg x, by omega⟩ hp

end KovaService.Archive
