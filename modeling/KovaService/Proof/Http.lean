import KovaService.Proof.Start

/-!
The handlers of the HTTP API meet the demands of the protocol.
-/

namespace KovaService.Proof

open Lib Api Ledger Protocol KovaService.System Http

variable {w : World} {ρ : w.Execution} {t i j : Nat} {cfg : Config} {id : String} {e : Intent}
variable {build : KovaBuild}

theorem serves_server : Serves w (w.server cfg).queueStore := ⟨rfl, rfl⟩

/-- Thread `t` has been told that its intent is in the ledger and has created no build since. -/
def Holding (ρ : w.Execution) (t j : Nat) (id : String) (e : Intent) : Prop :=
  ∃ m, m < j ∧ ρ.sends m t (.mark (.reserved id e true)) ∧ ρ.silent t isCreateBuild m j

theorem Holding.silent (h : Holding ρ t i id e) (hij : i ≤ j) (hs : ρ.silent t isCreateBuild i j) :
    Holding ρ t j id e := by
  obtain ⟨m, hm, hsend, hsil⟩ := h
  exact ⟨m, by omega, hsend, Run.silent_trans hsil hs⟩

theorem isCreateBuild.elsewhere {q : Request} (h : isCreateBuild q) : isElsewhere q := by
  cases q <;> first | exact h.elim | exact .inl rfl

theorem Holding.idle (h : Holding ρ t i id e) (hij : i ≤ j) (hs : Idle ρ t i j) :
    Holding ρ t j id e :=
  h.silent hij (silent_of_imp hs fun _ => isCreateBuild.elsewhere)

theorem Holding.calm (h : Holding ρ t i id e) (hij : i ≤ j) (hs : Calm ρ t i j) :
    Holding ρ t j id e :=
  h.idle hij (.of_calm hs)

theorem Holding.reserved (h : Holding ρ t i id e) : Reserved ρ t i id e := by
  obtain ⟨m, hm, hs, -⟩ := h
  exact ⟨m, hm, hs⟩

theorem markReserved_does (hu : Unspent ρ t i e.nonce isFreshMark) (he : HadIntent ρ i id e) :
    Does ρ t (mark (.reserved id e true)) i (fun _ j => Holding ρ t j id e) := by
  refine Run.wpE_lift.mpr (Run.wp_perform (fun n hn hr => ?_) fun k m r hk hm h1 hs h2 hg => ?_)
  · obtain ⟨l, hl, hlook⟩ := he
    exact ⟨hu.silent hn hr.silent, l, by omega, hlook⟩
  · have hne : ¬ isCreateBuild (.mark (.reserved id e true)) := fun h => h
    have hsil : ρ.silent t isCreateBuild i (m + 1) := Run.silent_exchange hne h1 hs h2 hg
    exact ⟨k, by omega, hs, fun n hkn hn => hsil n (by omega) hn⟩

/-- An answer that accepts the submission comes from a thread that had reserved its intent. -/
def Answered (ρ : w.Execution) (t : Nat) (id : String) (r : Response) (j : Nat) : Prop :=
  ∀ b, r = .accepted b → ∃ e, Reserved ρ t j id e

def Declines (failed : Err → Response) : Prop := ∀ e b, failed e ≠ .accepted b

theorem declines_unavailable : Declines .unavailable := fun _ _ h => by cases h

theorem declines_internal : Declines .internal := fun _ _ h => by cases h

theorem declines_replay : Declines genesisHTTPReplayFailure := by
  intro e b h
  unfold genesisHTTPReplayFailure at h
  split at h <;> cases h

theorem reserveFailure_declines : Declines reserveFailure := by
  intro e b h
  unfold reserveFailure differentParameters at h
  split_ifs at h

variable {Fail : Err → Nat → Prop} {failed : Err → Response} {α : Type} {Mid : α → Nat → Prop}
variable {next : α → K Response} {call : K α}

theorem handled_does (h : Does ρ t call i Mid Fail) (hf : Declines failed)
    (hn : ∀ a j, i ≤ j → Mid a j → Does ρ t (next a) j (Answered ρ t id)) :
    Does ρ t (handled call failed next) i (Answered ρ t id) := by
  unfold handled
  exact h.attempt hn fun e j _ _ => .pure fun b hb => absurd hb (hf e b)

theorem answer_does {r : Response} (h : ∀ b, r ≠ .accepted b) :
    Does ρ t (pure r) i (Answered ρ t id) :=
  Does.pure fun b hb => absurd hb (h b)

variable {witness : Option Queue.ObservedQueueIntent} {b : KovaBuild}

section Create

variable {p : Principal} {request : CreateBuildRequest}

theorem quiet_checkGenesis (s : Server) : Quiet s.checkGenesis :=
  quiet_ite quiet_genesisCheck (quiet_pure _)

theorem quiet_verifyGenesisHTTPReplay (s : Server) (build : KovaBuild)
    (request : CreateBuildRequest) (username : String) :
    Quiet (s.verifyGenesisHTTPReplay build request username) := by
  unfold Server.verifyGenesisHTTPReplay
  repeat' first | with_reducible refine quiet_bind ?_ fun _ => ?_ | refine quiet_ite ?_ ?_ | split
  all_goals simp

theorem replay_does (existing : KovaBuild) :
    Does ρ t ((w.server cfg).replay p request existing) i (Answered ρ t id) := by
  unfold Server.replay
  split
  · exact answer_does fun b h => by cases h
  · refine handled_does (quiet_verifyGenesisHTTPReplay _ existing request _).does declines_replay
      fun _ _ _ _ => answer_does fun b h => by cases h

theorem notFresh_does (intent : Intent) :
    Does ρ t ((w.server cfg).notFresh p request id intent) i (Answered ρ t id) := by
  unfold Server.notFresh
  refine (quiet_getBuild id).does.attempt (fun existing j _ _ => replay_does existing)
    fun e j _ _ => ?_
  refine .ite (fun _ => answer_does fun b h => by cases h) fun _ => ?_
  refine .ite (fun _ => ?_) fun _ => answer_does fun b h => by cases h
  exact handled_does (resumeRejectedCleanup_does serves_server) declines_unavailable
    fun _ _ _ _ => answer_does fun b h => by cases h

theorem recordReceipt_does (hh : Holding ρ t i id e) :
    Does ρ t ((w.server cfg).recordReceipt build e) i
      (fun x j => x.intent.queueNonce = e.nonce ∧ Holding ρ t j id e) := by
  unfold Server.recordReceipt
  refine .decoded fun receiptIntent hri => ?_
  refine (quiet_checkReceiptNamespace _).does.andThen fun _ j hj hc₁ => ?_
  have hrec : Does ρ t (recordOnce w.ext (.queue receiptIntent)) j (fun _ _ => True) := by
    refine (recordOnce_does fun n r _ _ hname hdata => ⟨hname, ?_⟩).complies
    rw [hdata]
    trivial
  have hnever : (recordOnce w.ext (.queue receiptIntent)).run.Never isCreateBuild :=
    never_recordOnce (fun _ h => isElsewhere.writes (isCreateBuild.elsewhere h)) (fun _ h => h) _ _
  refine (hrec.avoiding hnever).andThen fun x k hk ⟨_, hs⟩ => ?_
  refine (quiet_checkReceiptNamespace _).does.andThen fun _ l hl hc₂ => ?_
  refine (pinReceipt_does build e _).andThen fun _ q hq hidle => .pure ⟨?_, ?_⟩
  · exact receiptIntent_nonce hri
  · exact (((hh.calm hj hc₁).silent hk hs).calm hl hc₂).idle hq hidle

theorem createBuild_does (hd : ∀ n, i ≤ n → ρ.rests t i n → Submission ρ n t b) :
    Does ρ t (createBuild b) i (fun _ _ => True)
      (fun e j => unknownOutcome e = false → Refused ρ j b.annotations.queueIntent) := by
  refine Does.request rfl hd (fun _ _ _ _ _ _ => trivial) ?_
  rintro m r e hm hg rfl hu
  obtain ⟨ha, hv⟩ := createBuild_refused hg hu
  exact ⟨m, b, by omega, ha, rfl, hv⟩

/-- The witness of a submission, where there is one, is of the receipt of its own intent. -/
def Matches (witness : Option Queue.ObservedQueueIntent) (nonce : String) : Prop :=
  ∀ x, witness = some x → x.intent.queueNonce = nonce

theorem releaseRefused_does (hr : Reserved ρ t i build.name e) (href : Refused ρ i e.nonce)
    (hw : Matches witness e.nonce) :
    Complies ρ t ((w.server cfg).releaseRefused build e witness) i := by
  unfold Server.releaseRefused
  cases witness with
  | none => exact releaseRejected_does serves_server ⟨e, hr, rfl⟩ href
  | some x =>
    have hx : x.intent.queueNonce = e.nonce := hw x rfl
    exact releaseRejectedReceipt_does serves_server ⟨e, hr, hx.symm⟩ (hx ▸ href)

theorem created_does {answer : Except Err KovaBuild} (hr : Reserved ρ t i build.name e)
    (href : ∀ err, answer = .error err → unknownOutcome err = false → Refused ρ i e.nonce)
    (hw : Matches witness e.nonce) :
    Does ρ t ((w.server cfg).created p request build e witness answer) i
      (Answered ρ t build.name) := by
  unfold Server.created
  cases answer with
  | ok stored => exact .pure fun _ _ => ⟨e, hr⟩
  | error err =>
    refine .ite (fun ha => ?_) fun _ => .ite (fun hd => ?_) fun _ => ?_
    · have href := href err rfl (known_of_alreadyExists ha)
      refine handled_does (quiet_getBuild _).does declines_internal fun existing j hj _ => ?_
      unfold Server.collided
      refine .ite (fun _ => ?_) fun _ => .ite (fun _ => ?_) fun _ => replay_does existing
      · refine handled_does (quiet_checkGenesis _).does declines_unavailable fun _ k hk _ => ?_
        have hij : i ≤ k := hj.trans hk
        exact handled_does (releaseRefused_does (hr.mono hij) (href.mono hij) hw) declines_internal
          fun _ _ _ _ => replay_does existing
      · exact answer_does fun b h => by cases h
    · have href := href err rfl (known_of_definitiveRejection hd)
      refine handled_does (quiet_checkGenesis _).does declines_unavailable fun _ j hj _ => ?_
      exact handled_does (releaseRefused_does (hr.mono hj) (href.mono hj) hw) declines_internal
        fun _ _ _ _ => answer_does fun b h => by cases h
    · exact answer_does fun b h => by cases h

theorem createLinked_does (hh : Holding ρ t i build.name e)
    (hash : e.requesterHash = w.ext.hashRequester build.spec.requester.username)
    (hset : build.annotations.queueReceiptSettledUID = "") (hw : Matches witness e.nonce) :
    Does ρ t ((w.server cfg).createLinked p request build e witness) i
      (Answered ρ t build.name) := by
  unfold Server.createLinked
  have hquiet : Quiet (do
      (w.server cfg).checkGenesis
      if (w.server cfg).genesis.isSome then (w.server cfg).queueStore.checkReceiptNamespace) :=
    quiet_bind (quiet_checkGenesis _) fun _ =>
      quiet_ite (quiet_checkReceiptNamespace _) (quiet_pure _)
  refine handled_does hquiet.does declines_unavailable fun _ j hj hc => ?_
  have hh : Holding ρ t j build.name e := hh.calm hj hc
  have hsub : ∀ n, j ≤ n → ρ.rests t j n →
      Submission ρ n t (Server.linked build e witness) := by
    intro n hn hrest
    obtain ⟨m, hm, hs, hsil⟩ := hh.silent hn hrest.silent
    exact ⟨m, e, hm, hs, hsil, rfl, hash, hset⟩
  refine (createBuild_does hsub).attempt (fun stored k hk _ => ?_) fun err k hk href => ?_
  · have hr : Reserved ρ t k (Server.linked build e witness).name e := hh.reserved.mono hk
    exact created_does hr (fun err h => by cases h) hw
  · have hr : Reserved ρ t k (Server.linked build e witness).name e := hh.reserved.mono hk
    refine created_does hr ?_ hw
    rintro _ ⟨⟩
    exact href

theorem fresh_does (hh : Holding ρ t i build.name e)
    (hash : e.requesterHash = w.ext.hashRequester build.spec.requester.username)
    (hset : build.annotations.queueReceiptSettledUID = "") :
    Does ρ t ((w.server cfg).fresh p request build e) i (Answered ρ t build.name) := by
  unfold Server.fresh
  split
  · refine (recordReceipt_does hh).attempt (fun x j hj hx => ?_) fun _ _ _ _ => ?_
    · refine createLinked_does hx.2 hash hset ?_
      rintro _ ⟨⟩
      exact hx.1
    · exact answer_does fun b h => by cases h
  · exact createLinked_does hh hash hset fun _ h => (by cases h)

theorem submit_does : Does ρ t ((w.server cfg).submit p request id) i (Answered ρ t id) := by
  unfold Server.submit
  have hquiet : Quiet (do
      (w.server cfg).checkActiveAdmissionLedger
      (w.server cfg).checkGenesis
      if (w.server cfg).genesis.isSome then ctxErr) := by
    unfold Server.checkActiveAdmissionLedger
    repeat' first | with_reducible refine quiet_bind ?_ fun _ => ?_ | refine quiet_ite ?_ ?_ | split
    all_goals simp
  refine handled_does hquiet.does declines_unavailable fun _ j _ _ => ?_
  refine (reserve_does serves_server _).attempt (fun ⟨intent, isFresh⟩ k _ h => ?_) fun e k _ _ => ?_
  · cases isFresh with
    | true =>
      obtain ⟨hun, hhad, hash⟩ := h rfl
      refine (markReserved_does hun hhad).andThen fun _ l _ hh => ?_
      exact fresh_does hh hash rfl
    | false =>
      have hmark : ∀ n, k ≤ n → ρ.rests t k n → Marked ρ n t (.reserved id intent false) :=
        fun _ _ _ => trivial
      exact (mark_does hmark).andThen fun _ l _ _ => notFresh_does intent
  · exact answer_does fun b => reserveFailure_declines e b

theorem createNamed_does :
    Does ρ t ((w.server cfg).createNamed p request id) i (Answered ρ t id) := by
  unfold Server.createNamed
  split
  · refine (quiet_getBuild id).does.attempt (fun existing j _ _ => replay_does existing)
      fun e j _ _ => ?_
    exact .ite (fun _ => submit_does) fun _ => answer_does fun b h => by cases h
  · exact submit_does

theorem handled_complies (h : Does ρ t call i Mid Fail)
    (hn : ∀ a j, i ≤ j → Mid a j → Complies ρ t (next a) j) :
    Complies ρ t (handled call failed next) i := by
  unfold handled
  exact h.attempt hn fun _ _ _ _ => .pure trivial

theorem handleCreateBuild_does (body : Except Err CreateBuildRequest) :
    Complies ρ t ((w.server cfg).handleCreateBuild p body) i := by
  unfold Server.handleCreateBuild
  refine Does.andThen (show Complies ρ t _ i from ?_) fun _ _ _ _ => .pure trivial
  refine handled_complies quiet_authorize.does fun _ j _ _ => ?_
  refine handled_complies (quiet_checkGenesis _).does fun _ k _ _ => ?_
  refine .ite (fun _ => .pure trivial) fun _ => ?_
  refine .ite (fun _ => .pure trivial) fun _ => ?_
  cases body with
  | error e => exact .pure trivial
  | ok request =>
    refine handled_complies (quiet_ite quiet_newJobID (quiet_pure _)).does fun id l _ _ => ?_
    refine createNamed_does.andThen fun response q _ hans => ?_
    have hmark : ∀ n, q ≤ n → ρ.rests t q n → Marked ρ n t (.responded id response) := by
      intro n hn _
      cases response with
      | accepted b =>
        obtain ⟨e, he⟩ := hans b rfl
        exact ⟨e, he.mono hn⟩
      | _ => trivial
    exact (mark_does hmark).andThen fun _ _ _ _ => .pure trivial

end Create

theorem patchAnnotations_does (hd : ∀ n, i ≤ n → ∃ base, MetadataWrite ρ n b base) :
    Complies ρ t (patchAnnotations b) i :=
  Does.request rfl (fun n hn _ => hd n hn) (fun _ _ _ _ _ _ => trivial) fun _ _ _ _ _ _ => trivial

theorem handleCancelBuild_does (name : String) :
    Complies ρ t ((w.server cfg).handleCancelBuild name) i := by
  unfold Server.handleCancelBuild
  refine (getBuild_does name).attempt (fun build j _ hr => ?_) fun _ _ _ _ => .pure trivial
  have hb := hr.known
  refine Does.andThen (handled_complies quiet_authorize.does fun _ k hk _ => ?_)
    fun _ _ _ _ => .pure trivial
  refine .ite (fun _ => .pure trivial) fun _ => ?_
  refine quiet_timeNow.does.andThen fun now l hl _ => ?_
  refine handled_complies (quiet_checkGenesis _).does fun _ q hq _ => ?_
  refine .ite (fun _ => .pure trivial) fun _ => ?_
  refine handled_complies (patchAnnotations_does fun n hn => ?_) fun _ _ _ _ => .pure trivial
  refine ⟨build, versions_mono ρ (by omega) hb, rfl, ⟨rfl, rfl, rfl, fun hne => ?_, fun _ => rfl⟩,
    .inl rfl⟩
  simp [hne]

end KovaService.Proof
