import KovaService.Runner.Barrier

/-!
Builds in one daemon process.

The published status leaves `running` before the deferred cleanup of the goroutine, so a build request
without an id can be accepted while the previous invocation has yet to remove the shared image
directory.  When every request that is accepted finds no done channel installed, this cannot happen.
-/

namespace KovaService.Runner

open Lib Api

def Pc.live (pc : Pc) : Bool := !pc.joined

/-- A build request that would be accepted arrives when no done channel is installed. -/
def afterCleanup (s : Server) : Server.Action → Prop
  | .build _ => s.vacant = true → s.buildDone = none
  | _ => True

instance (s : Server) (a : Server.Action) : Decidable (afterCleanup s a) :=
  match a with
  | .build _ => inferInstanceAs (Decidable (s.vacant = true → s.buildDone = none))
  | .status | .cancel | .retire _ | .retireStatus _ | .advance _ _ => isTrue trivial

/-- The directory is about to be removed by the cleanup of invocation `i`. -/
def Server.cleansUp (s : Server) (i : Nat) : Prop :=
  ∃ v status, s.invocations[i]? = some v ∧ v.pc = .published true status

/-- Every live invocation is the newest. -/
def Alone (s : Server) : Prop :=
  ∀ (i : Nat) (v : Invocation), s.invocations[i]? = some v → v.pc.live → s.last i

/-- The invocations stay, and the cleanup of none is undone. -/
structure Fewer (s s' : Server) : Prop where
  length : s'.invocations.length = s.invocations.length
  live : ∀ (i : Nat) (v' : Invocation), s'.invocations[i]? = some v' → v'.pc.live →
    ∃ v, s.invocations[i]? = some v ∧ v.pc.live

variable {o : Outcome} {a : Server.Action} {resp : Response}

section Step

variable {s s' : Server} {i : Nat}

theorem Fewer.refl (s : Server) : Fewer s s := ⟨rfl, fun _ v hv hl => ⟨v, hv, hl⟩⟩

theorem Fewer.trans {s₁ s₂ s₃ : Server} (h : Fewer s₁ s₂) (h' : Fewer s₂ s₃) : Fewer s₁ s₃ := by
  refine ⟨h'.length.trans h.length, fun i v hv hl => ?_⟩
  obtain ⟨u, hu, hul⟩ := h'.live i v hv hl
  exact h.live i u hu hul

theorem Fewer.of_eq (h : s'.invocations = s.invocations) : Fewer s s' :=
  ⟨by rw [h], fun _ v hv hl => ⟨v, h ▸ hv, hl⟩⟩

theorem Fewer.invocation {f : Invocation → Invocation} (s : Server)
    (hf : ∀ v, (f v).pc.live → v.pc.live) : Fewer s (s.invocation i f) := by
  refine ⟨by simp [Server.invocation], fun j v hv hl => ?_⟩
  obtain ⟨u, hu, rfl⟩ := getElem?_invocation hv
  refine ⟨u, hu, ?_⟩
  split at hl
  · exact hf u hl
  · exact hl

theorem Fewer.cancelled (s : Server) (reason : String) : Fewer s (s.cancelled reason) := by
  have hc : Fewer s s.cancelContext := by
    unfold Server.cancelContext
    split
    · exact .refl s
    · exact .invocation s fun _ h => h
  exact hc.trans (.of_eq rfl)

theorem Fewer.stopRunning (s : Server) : Fewer s s.stopRunning := by
  unfold Server.stopRunning
  split
  · exact .cancelled s _
  · exact .refl s

theorem Pc.live_next {pc : Pc} {c : Bool} (h : (pc.next c o).live) : pc.live := by
  cases pc <;> first | rfl | (cases o <;> cases h)

theorem Server.perform_invocations (s : Server) (i : Nat) (pc : Pc) (o : Outcome) :
    (s.perform i pc o).invocations = s.invocations := by
  unfold Server.perform Server.clearBuildExecution
  split
  case h_5 => split <;> rfl
  all_goals rfl

theorem Fewer.advance (he : s.advance i o = some s') : Fewer s s' := by
  unfold Server.advance at he
  split at he
  · cases he
  · split at he
    · cases he
    · cases he
      refine (Fewer.of_eq (Server.perform_invocations s i _ o)).trans (.invocation _ fun v hl => ?_)
      exact Pc.live_next hl

theorem Alone.fewer (h : Alone s) (hf : Fewer s s') : Alone s' := by
  intro i v hv hl
  obtain ⟨u, hu, hul⟩ := hf.live i v hv hl
  have := h i u hu hul
  unfold Server.last at this ⊢
  rw [hf.length, this]

theorem Alone.accept {requestID : String} (h : Alone s) (hc : Coherent s)
    (hd : s.buildDone = none) : Alone (s.admitBuild requestID) := by
  intro i v hv hl
  rcases Nat.lt_or_ge i s.invocations.length with hlt | hge
  · have hu : s.invocations[i]? = some v := by
      simpa [Server.admitBuild, List.getElem?_append_left hlt] using hv
    have hdone := (hc.placed i v hu).done (h i v hu hl)
    rw [hd] at hdone
    split at hdone
    · next hf =>
      rw [hf] at hl
      cases hl
    · cases hdone
  · have hlen : i < (s.admitBuild requestID).invocations.length :=
      (List.getElem?_eq_some_iff.mp hv).1
    simp only [Server.last, Server.admitBuild, List.length_append, List.length_singleton] at hlen ⊢
    omega

theorem Alone.step (h : Alone s) (hc : Coherent s) (ha : afterCleanup s a)
    (he : s.step a = some (s', resp)) : Alone s' := by
  cases step_effect he with
  | same => exact h
  | accept hv => exact h.accept hc (ha hv)
  | cancel => exact h.fewer (.cancelled s _)
  | @install _ id _ =>
    have hi : Alone (s.installBarrier id) := h.fewer (.of_eq rfl)
    exact hi.fewer (.stopRunning _)
  | stop => exact h.fewer (.stopRunning s)
  | advance hs => exact h.fewer (.advance hs)

/-- The shared directory holds the files of an accepted invocation. -/
def Owned (s : Server) : Prop := ∀ i, s.dir = some i → i < s.invocations.length

theorem Owned.of_eq (h : Owned s) (hd : s'.dir = s.dir)
    (hl : s.invocations.length ≤ s'.invocations.length) : Owned s' :=
  fun i hi => (h i (hd ▸ hi)).trans_le hl

theorem Owned.cancelled {reason : String} (h : Owned s) : Owned (s.cancelled reason) := by
  refine h.of_eq ?_ (Fewer.cancelled s reason).length.ge
  unfold Server.cancelled Server.cancelContext
  split <;> rfl

theorem Owned.stopRunning (h : Owned s) : Owned s.stopRunning := by
  unfold Server.stopRunning
  split
  · exact h.cancelled
  · exact h

theorem Owned.perform {pc : Pc} (h : Owned s) (hi : i < s.invocations.length) :
    Owned (s.perform i pc o) := by
  unfold Server.perform Server.clearBuildExecution
  split
  · rintro j ⟨⟩
  · rintro j ⟨⟩
  · rintro j ⟨⟩
    exact hi
  · exact h
  · split <;> exact h
  · exact h

theorem Owned.step (h : Owned s) (he : s.step a = some (s', resp)) : Owned s' := by
  cases step_effect he with
  | same => exact h
  | accept => exact h.of_eq rfl (by simp [Server.admitBuild])
  | cancel => exact h.cancelled
  | @install _ id _ =>
    have hi : Owned (s.installBarrier id) := h.of_eq rfl le_rfl
    exact hi.stopRunning
  | stop => exact h.stopRunning
  | @advance i o _ hs =>
    unfold Server.advance at hs
    split at hs
    · cases hs
    · next v hv =>
      split at hs
      · cases hs
      · cases hs
        have hp : Owned (s.perform i v.pc o) := h.perform (List.getElem?_eq_some_iff.mp hv).1
        exact hp.of_eq rfl (by simp [Server.invocation])

end Step

/-- When no accepted build request finds a done channel installed, at most one invocation is live, and
no cleanup removes the files of a later invocation. -/
theorem builds_never_overlap {s : Server} (hs : Server.process.Reachable afterCleanup s) :
    (∀ (i j : Nat) (v u : Invocation), s.invocations[i]? = some v → s.invocations[j]? = some u →
      v.pc.live → u.pc.live → i = j) ∧
    ∀ i j, s.cleansUp i → s.dir = some j → j ≤ i := by
  have hinv : Coherent s ∧ Alone s ∧ Owned s := by
    refine hs.invariant (P := fun s => Coherent s ∧ Alone s ∧ Owned s) ⟨Coherent.initial, ?_, ?_⟩
      fun s a s' r h ha he => ⟨h.1.step he, h.2.1.step h.1 ha he, h.2.2.step he⟩
    · intro i v hv
      simp [Server.process] at hv
    · intro i hi
      simp [Server.process] at hi
  obtain ⟨-, halone, howned⟩ := hinv
  refine ⟨fun i j v u hv hu hvl hul => ?_, fun i j hc hj => ?_⟩
  · have h1 := halone i v hv hvl
    have h2 := halone j u hu hul
    unfold Server.last at h1 h2
    omega
  · obtain ⟨v, status, hv, hpc⟩ := hc
    have hlast := halone i v hv (by rw [hpc]; rfl)
    have hlt := howned j hj
    unfold Server.last at hlast
    omega

theorem builds_never_overlap_sequential :
    ∃ s, Server.process.Reachable afterCleanup s ∧ s.invocations.length = 2 ∧
      ∀ (i j : Nat) (v u : Invocation), s.invocations[i]? = some v → s.invocations[j]? = some u →
        v.pc.live → u.pc.live → i = j := by
  have hrun : (Server.process.after (fun s a => decide (afterCleanup s a)) {}
      [.build [], .advance 0 (.fail "disk full"), .advance 0 .ok, .advance 0 .ok, .advance 0 .ok,
        .build []]).any (fun s => s.invocations.length == 2) := by decide +kernel
  obtain ⟨s, hs, hl⟩ := (Option.any_eq_true _ _).mp hrun
  have hreach : Server.process.Reachable afterCleanup s :=
    Automaton.steps_of_after hs fun _ _ h => of_decide_eq_true h
  exact ⟨s, hreach, by simpa using hl, (builds_never_overlap hreach).1⟩

/-- The status of an anonymous build is published before its goroutine cleans up.  The next request
is accepted and extracts its files; then the first goroutine removes the directory. -/
theorem builds_overlap : ∃ s s' : Server, Server.process.Reachable always s ∧
    (∃ v u : Invocation, s.invocations[0]? = some v ∧ s.invocations[1]? = some u ∧
      v.pc = .published true .completed ∧ u.pc = .release ∧ v.pc.live ∧ u.pc.live) ∧
    s.dir = some 1 ∧ s.step (.advance 0 .ok) = some (s', .silent) ∧ s'.dir = none := by
  have hrun : (Server.process.after (fun _ _ => true) {}
      ([.build []] ++ List.replicate 14 (.advance 0 .ok) ++ [.build []] ++
        List.replicate 10 (.advance 1 .ok))).any (fun s =>
          (s.invocations[0]?.any fun v => v.pc == .published true .completed) &&
          (s.invocations[1]?.any fun u => u.pc == .release) && s.dir == some 1 &&
          (s.step (.advance 0 .ok)).any fun p => p.1.dir == none && p.2 == .silent) := by
    decide +kernel
  obtain ⟨s, hs, h⟩ := (Option.any_eq_true _ _).mp hrun
  simp only [Bool.and_eq_true, Option.any_eq_true, beq_iff_eq] at h
  obtain ⟨⟨⟨⟨v, hv, hvp⟩, u, hu, hup⟩, hd⟩, ⟨s', r⟩, he, hd', rfl⟩ := h
  refine ⟨s, s', Automaton.steps_of_after hs fun _ _ _ => trivial, ⟨v, u, hv, hu, hvp, hup, ?_, ?_⟩,
    hd, he, hd'⟩
  · rw [hvp]
    rfl
  · rw [hup]
    rfl

end KovaService.Runner
