import KovaService.Submission.Query
import KovaService.Submission.Request

/-!
A submission across the hop: the options the runner reads from the query are the options of the
request the service accepted, but for a timeout of zero and one too long for a duration.
-/

namespace KovaService.Submission

open Lib Text Api
open Url (Values)
open Http (CreateBuildRequest)

variable {x : Libraries}

theorem get_setIf {c : Prop} [Decidable c] (v : Values) (key value k : String) :
    (if c then v.set key value else v).get k = if k = key ∧ c then [value] else v.get k := by
  by_cases hc : c
  · rw [if_pos hc, Values.get_set]
    simp [hc]
  · simp [hc]

theorem get_setString (v : Values) (key value k : String) :
    (setString v key value).get k =
      if k = key ∧ trimSpace value ≠ "" then [value] else v.get k := by
  unfold setString
  rw [get_setIf]
  simp only [bne_iff_ne]

theorem get_buildValues (ns : String) (build : KovaBuild) (platformAddrs : StringMap)
    (registries : List String) (k : String) :
    (buildValues ns build platformAddrs registries).get k =
      if k = "var" then build.spec.build.vars
      else if k = "verbose" ∧ build.spec.build.verbose = true then ["true"]
      else if k = "fail-fast" ∧ build.spec.build.failFast = true then ["true"]
      else if k = "timeout" ∧ build.spec.build.timeout > 0 then [itoa build.spec.build.timeout]
      else if k = "concurrency" ∧ submittedConcurrency build > 0 then
        [itoa (submittedConcurrency build)]
      else if k = "oom-cooldown" ∧ trimSpace build.spec.build.oomCooldown ≠ "" then
        [build.spec.build.oomCooldown]
      else if k = "format" ∧ trimSpace build.spec.build.format ≠ "" then [build.spec.build.format]
      else if k = "registry-plain-http" then registries
      else if k = "platform-addr" then platformPairs platformAddrs
      else if k = "request-id" then [requestID ns build]
      else [] := by
  unfold buildValues
  simp only [Values.get_addAll, get_setIf, get_setString, Values.get_set, Values.get_nil]
  by_cases hvar : k = "var"
  · subst hvar
    simp
  by_cases hreg : k = "registry-plain-http"
  · subst hreg
    simp
  by_cases haddr : k = "platform-addr"
  · subst haddr
    simp
  simp [hvar, hreg, haddr]

section Read

variable {q : Values} {key : String}

theorem queryValue_absent (h : q.get key = []) : queryValue x q key = .ok none := by
  rw [queryValue, h]

theorem queryValue_one {v : String} (h : q.get key = [v]) : queryValue x q key = .ok (some v) := by
  rw [queryValue, h]

theorem queryIntStrict_absent (h : q.get key = []) (default min : Int) :
    queryIntStrict x q key default min = .ok default := by
  rw [queryIntStrict, ok_bind (queryValue_absent h)]
  rfl

theorem queryIntStrict_itoa {n min : Int} (h : q.get key = [itoa n]) (hn : FitsInt n) (hmin : min ≤ n)
    (default : Int) : queryIntStrict x q key default min = .ok n := by
  rw [queryIntStrict, ok_bind (queryValue_one h)]
  simp only [beq_iff_eq, if_neg (itoa_not_blank n), atoi_itoa hn.1 hn.2, if_neg (not_lt.mpr hmin)]
  rfl

theorem queryDurationStrict_absent (h : q.get key = []) (default min : Int) :
    queryDurationStrict x q key default min = .ok default := by
  rw [queryDurationStrict, ok_bind (queryValue_absent h)]
  rfl

theorem queryDurationStrict_given {v : String} {d min : Int} (h : q.get key = [v])
    (hv : trimSpace v ≠ "") (hd : x.parseDuration v = some d) (hmin : min ≤ d) (default : Int) :
    queryDurationStrict x q key default min = .ok d := by
  rw [queryDurationStrict, ok_bind (queryValue_one h)]
  simp only [beq_iff_eq, if_neg hv, hd, if_neg (not_lt.mpr hmin)]
  rfl

theorem queryBoolStrict_flag {b : Bool} (h : q.get key = if b = true then ["true"] else []) :
    queryBoolStrict x q key false = .ok b := by
  cases b with
  | false =>
    rw [queryBoolStrict, ok_bind (queryValue_absent h)]
    rfl
  | true =>
    have htrim : trimSpace "true" = "true" := by decide
    have hlower : x.toLower "true" = "true" := toLower_ascii x (by decide)
    rw [queryBoolStrict, ok_bind (queryValue_one h)]
    simp only [htrim, hlower]
    rfl

end Read

theorem forM_ok {ε α : Type} {f : α → Except ε Unit} {l : List α} (h : ∀ a ∈ l, f a = .ok ()) :
    l.forM f = .ok () := by
  induction l with
  | nil => rfl
  | cons a l ih =>
    change (f a >>= fun _ => l.forM f) = .ok ()
    rw [ok_bind (h a (by simp))]
    exact ih fun b hb => h b (List.mem_cons_of_mem a hb)

theorem mapM_ok {ε α β : Type} {f : α → Except ε β} {g : α → β} {l : List α}
    (h : ∀ a ∈ l, f a = .ok (g a)) : l.mapM f = .ok (l.map g) := by
  induction l with
  | nil => rfl
  | cons a l ih =>
    rw [List.mapM_cons, ok_bind (h a (by simp)),
      ok_bind (ih fun b hb => h b (List.mem_cons_of_mem a hb))]
    rfl

/-- An address map whose pools the runner can use. -/
structure ValidPlatformAddrs (x : Libraries) (platformAddrs : StringMap) : Prop where
  nonempty : platformAddrs ≠ ∅
  platform : ∀ p ∈ platformAddrs, p = platformLinuxAMD64 ∨ p = platformLinuxARM64
  address : ∀ p a, platformAddrs.lookup p = some a →
    trimSpace a = a ∧ a ≠ "" ∧ ∃ pool, parseAddrs x a = .ok pool

def ValidRegistries (x : Libraries) (registries : List String) : Prop :=
  ∀ r ∈ registries, trimSpace r = r ∧ r ≠ "" ∧ x.newRegistry r = .ok ()

section Addresses

variable {m : StringMap}

theorem lookup_of_mem {p : String} (h : p ∈ m) : ∃ a, m.lookup p = some a :=
  Option.isSome_iff_exists.mp (Finmap.lookup_isSome.mpr h)

theorem foldlM_platformPairs (hm : ValidPlatformAddrs x m) {l : List String} (hn : l.Nodup)
    (hl : ∀ p ∈ l, p ∈ m) (acc : StringMap) (hacc : ∀ p ∈ l, acc.lookup p = none) :
    ∃ result, (l.map fun p => p ++ "=" ++ (m.lookup p).getD "").foldlM (addPlatformAddress x) acc =
        .ok result ∧ ∀ p, result.lookup p = if p ∈ l then m.lookup p else acc.lookup p := by
  induction l generalizing acc with
  | nil => exact ⟨acc, rfl, by simp⟩
  | cons p l ih =>
    rw [List.nodup_cons] at hn
    obtain ⟨a, ha⟩ := lookup_of_mem (hl p (by simp))
    obtain ⟨htrim, hne, -⟩ := hm.address p a ha
    have hadd := addPlatformAddress_pair x (hm.platform p (hl p (by simp))) htrim hne
      (hacc p (by simp))
    have hfresh : ∀ p' ∈ l, (acc.insert p a).lookup p' = none := by
      intro p' hp'
      have hdiff : p' ≠ p := fun heq => hn.1 (heq ▸ hp')
      rw [Finmap.lookup_insert_of_ne _ hdiff]
      exact hacc p' (List.mem_cons_of_mem p hp')
    obtain ⟨result, hresult, hlookup⟩ :=
      ih hn.2 (fun p' hp' => hl p' (List.mem_cons_of_mem p hp')) (acc.insert p a) hfresh
    refine ⟨result, ?_, fun p' => ?_⟩
    · rw [List.map_cons, List.foldlM_cons, ha, Option.getD_some, ok_bind hadd]
      exact hresult
    · rw [hlookup]
      by_cases hp : p' = p
      · subst hp
        simp [hn.1, ha]
      · simp [hp, Finmap.lookup_insert_of_ne]

theorem parsePlatformAddresses_pairs (hm : ValidPlatformAddrs x m) :
    parsePlatformAddresses x (platformPairs m) = .ok m := by
  obtain ⟨result, hresult, hlookup⟩ := foldlM_platformPairs hm (Finset.sort_nodup m.keys (· ≤ ·))
    (fun p hp => by simpa [Finmap.mem_keys] using hp) ∅ (fun p _ => Finmap.lookup_empty p)
  have heq : result = m := by
    refine Finmap.ext_lookup fun p => ?_
    rw [hlookup]
    by_cases hp : p ∈ m
    · rw [if_pos (by simpa [Finmap.mem_keys] using hp)]
    · rw [if_neg (by simpa [Finmap.mem_keys] using hp), Finmap.lookup_empty,
        Finmap.lookup_eq_none.mpr hp]
  subst heq
  have hcard : (result.keys.card == 0) = false := by
    rw [beq_eq_false_iff_ne, Ne, Finset.card_eq_zero]
    intro hkeys
    apply hm.nonempty
    refine Finmap.ext_lookup fun p => ?_
    have hp : p ∉ result.keys := by simp [hkeys]
    rw [Finmap.lookup_empty, Finmap.lookup_eq_none, ← Finmap.mem_keys]
    exact hp
  unfold parsePlatformAddresses
  rw [platformPairs, ok_bind hresult, hcard]
  rfl

theorem platformPools_ok (hm : ValidPlatformAddrs x m) :
    ∃ pools, platformPools x m = .ok pools ∧ pools ≠ [] ∧
      ∀ p a, m.lookup p = some a → ∃ pool, parseAddrs x a = .ok pool ∧ (p, pool) ∈ pools := by
  have hpool : ∀ p ∈ sortedNames m.keys, ∃ pool,
      parseAddrs x ((m.lookup p).getD "") = .ok pool := by
    intro p hp
    obtain ⟨a, ha⟩ := lookup_of_mem (m := m) (p := p) (by simpa [Finmap.mem_keys] using hp)
    rw [ha]
    exact (hm.address p a ha).2.2
  choose! pool hparse using hpool
  have heach : ∀ p ∈ sortedNames m.keys, platformPool x m p = .ok (p, pool p) := by
    intro p hp
    rw [platformPool, hparse p hp]
  have hmem : ∀ p a, m.lookup p = some a → p ∈ sortedNames m.keys := by
    intro p a ha
    simpa [Finmap.mem_keys] using Finmap.mem_of_lookup_eq_some ha
  refine ⟨_, mapM_ok heach, ?_, ?_⟩
  · intro hnil
    apply hm.nonempty
    refine Finmap.ext_lookup fun p => ?_
    rw [Finmap.lookup_empty, Option.eq_none_iff_forall_ne_some]
    intro a ha
    have := hmem p a ha
    rw [List.map_eq_nil_iff.mp hnil] at this
    simp at this
  · intro p a ha
    have hp := hmem p a ha
    refine ⟨pool p, ?_, List.mem_map.mpr ⟨p, hp, rfl⟩⟩
    have := hparse p hp
    rwa [ha] at this

theorem plainHTTPRegistryHosts_ok {registries : List String} (h : ValidRegistries x registries) :
    plainHTTPRegistryHosts x registries = .ok registries := by
  have hhost : ∀ r ∈ registries, plainHTTPRegistryHost x r = .ok r := by
    intro r hr
    obtain ⟨htrim, hne, hreg⟩ := h r hr
    simp [plainHTTPRegistryHost, htrim, hne, hreg]
  rw [plainHTTPRegistryHosts, mapM_ok hhost, List.map_id']

end Addresses

theorem requestedFormat_normal (x : Libraries) (body : RequestBody) :
    trimSpace (body.requestedFormat x) = body.requestedFormat x ∧
      x.toLower (body.requestedFormat x) = body.requestedFormat x ∧
      body.requestedFormat x ≠ "" := by
  unfold RequestBody.requestedFormat
  by_cases h : x.toLower (trimSpace body.format) = ""
  · rw [if_pos (by simpa using h)]
    exact ⟨by decide, toLower_ascii x (by decide), by decide⟩
  · rw [if_neg (by simpa using h)]
    exact ⟨trimSpace_toLower x (trimSpace_trimSpace body.format),
      toLower_toLower x (trimSpace body.format), h⟩

theorem normalize_requestedFormat (x : Libraries) (body : RequestBody) :
    normalizeBuildFormatValue x (body.requestedFormat x) = body.requestedFormat x := by
  obtain ⟨htrim, hlower, hne⟩ := requestedFormat_normal x body
  simp [normalizeBuildFormatValue, htrim, hlower, hne]

/-- The limit a request asks for: none if its timeout is zero. -/
def RequestBody.requestedLimit (body : RequestBody) : Option Int :=
  if body.timeout = 0 then none else some (body.timeout * second)

/-- Everything but the timeout arrives as it was requested. -/
structure Carries (x : Libraries) (body : RequestBody) (allocation : Int) (m : StringMap)
    (registries : List String) (opts : Options) : Prop where
  format : opts.buildFormat = body.requestedFormat x
  cooldown : trimSpace body.oomCooldown ≠ "" →
    x.parseDuration body.oomCooldown = some opts.oomCooldown
  failFast : opts.failfast = body.failFast
  verbose : opts.verbose = body.verbose
  vars : parseBuildVariables x body.buildVariables = .ok opts.vars
  platformAddrs : opts.platformAddrsRaw = m
  pools : ∀ p a, m.lookup p = some a → ∃ pool, parseAddrs x a = .ok pool ∧
    (p, setCooldown opts.oomCooldown pool) ∈ opts.platformAddrs
  registries : opts.registryPlainHTTP = registries
  concurrency : opts.concurrency = allocation

/-- A build of an accepted request with an allocation, and the configuration it is submitted with. -/
structure Submitted (x : Libraries) (body : RequestBody) (build : KovaBuild) (m : StringMap)
    (registries : List String) : Prop where
  accepted : body.Accepted x
  spec : build.spec.build = body.options x
  allocated : 1 ≤ build.status.allocatedConcurrency
  bounded : build.status.allocatedConcurrency ≤ body.concurrency
  pools : ValidPlatformAddrs x m
  registries : ValidRegistries x registries

/-- The query has under every key what was written. -/
def Written (ns : String) (build : KovaBuild) (m : StringMap) (registries : List String)
    (q : Values) : Prop :=
  ∀ k, q.get k = (buildValues ns build m registries).get k

section Hop

variable {body : RequestBody} {build : KovaBuild} {m : StringMap} {registries : List String}
  {q : Values} {ns : String}

/-- Only known keys are written, and only lists more than once. -/
theorem validateQueryKeys_written (hq : Written ns build m registries q) :
    validateQueryKeys x q buildQueryKeys = .ok () := by
  refine forM_ok fun k hk => ?_
  rw [Values.mem_keys, hq, get_buildValues] at hk
  have hallowed : k ∈ buildQueryKeys := by
    by_contra hnot
    simp only [buildQueryKeys, List.mem_cons, List.not_mem_nil, or_false, not_or] at hnot
    simp [hnot] at hk
  rw [if_neg (by simpa using hallowed)]
  by_cases hrep : repeatable k = true
  · rw [if_pos hrep]
  · have hrep' : k ≠ "var" ∧ k ≠ "target" ∧ k ≠ "platform-addr" ∧ k ≠ "registry-plain-http" := by
      simpa [repeatable, and_assoc] using hrep
    have hlen : (q.get k).length ≤ 1 := by
      rw [hq, get_buildValues]
      simp only [hrep'.1, hrep'.2.2.1, hrep'.2.2.2, if_false]
      split_ifs <;> simp
    rw [if_neg hrep, rejectIf, if_neg (by simpa using hlen)]

theorem addrs_written (hq : Written ns build m registries q) :
    addrsFromQuery x q "" = .ok ("", []) := by
  have h : q.get "addrs" = [] := by simp [hq "addrs", get_buildValues]
  rw [addrsFromQuery, ok_bind (queryValue_absent h)]
  rfl

variable (hs : Submitted x body build m registries) (hq : Written ns build m registries q)
include hs hq

theorem platformValues_written : platformValuesFromQuery x q = .ok m := by
  have h : q.get "platform-addr" = platformPairs m := by simp [hq "platform-addr", get_buildValues]
  rw [platformValuesFromQuery, h, parsePlatformAddresses_pairs hs.pools]

theorem concurrency_written :
    queryIntStrict x q "concurrency" 1 1 = .ok build.status.allocatedConcurrency ∧
      build.status.allocatedConcurrency ≤ maxBuildConcurrency := by
  have hpos := hs.allocated
  have hle := hs.bounded.trans hs.accepted.concurrency.2
  have hbound : build.status.allocatedConcurrency ≤ 100 := hle
  have hconc : submittedConcurrency build = build.status.allocatedConcurrency := by
    rw [submittedConcurrency, if_pos (by omega)]
  have hget : q.get "concurrency" = [itoa build.status.allocatedConcurrency] := by
    rw [hq, get_buildValues, hconc]
    have hgt : build.status.allocatedConcurrency > 0 := by omega
    simp [hgt]
  exact ⟨queryIntStrict_itoa hget ⟨by omega, by omega⟩ hpos 1, hle⟩

/-- A timeout of zero is not written, so that the runner's default takes its place. -/
theorem timeout_written :
    queryIntStrict x q "timeout" 300 0 = .ok (if 0 < body.timeout then body.timeout else 300) := by
  have hget : q.get "timeout" = if 0 < body.timeout then [itoa body.timeout] else [] := by
    rw [hq, get_buildValues]
    simp [hs.spec, RequestBody.options]
  by_cases h : 0 < body.timeout
  · rw [if_pos h] at hget ⊢
    exact queryIntStrict_itoa hget body.fits.2 h.le 300
  · rw [if_neg h] at hget ⊢
    exact queryIntStrict_absent hget 300 0

theorem cooldown_written :
    ∃ d, queryDurationStrict x q "oom-cooldown" defaultBuildkitOOMCooldown 0 = .ok d ∧
      (trimSpace body.oomCooldown ≠ "" → x.parseDuration body.oomCooldown = some d) := by
  have hblank : trimSpace "" = "" := by decide
  by_cases h : trimSpace body.oomCooldown = ""
  · have hget : q.get "oom-cooldown" = [] := by
      rw [hq, get_buildValues]
      simp [hs.spec, RequestBody.options, h, hblank]
    exact ⟨_, queryDurationStrict_absent hget _ 0, fun hne => absurd h hne⟩
  · have hget : q.get "oom-cooldown" = [body.oomCooldown] := by
      rw [hq, get_buildValues]
      simp [hs.spec, RequestBody.options, h]
    obtain ⟨d, hd, hmin⟩ := hs.accepted.cooldown h
    exact ⟨d, queryDurationStrict_given hget h hd hmin _, fun _ => hd⟩

theorem format_written :
    queryValue x q "format" = .ok (some (body.requestedFormat x)) := by
  obtain ⟨htrim, -, hne⟩ := requestedFormat_normal x body
  refine queryValue_one ?_
  rw [hq, get_buildValues]
  simp [hs.spec, RequestBody.options, htrim, hne]

theorem failFast_written :
    queryBoolStrict x q "fail-fast" false = .ok body.failFast := by
  refine queryBoolStrict_flag ?_
  rw [hq, get_buildValues]
  simp [hs.spec, RequestBody.options]

theorem verbose_written :
    queryBoolStrict x q "verbose" false = .ok body.verbose := by
  refine queryBoolStrict_flag ?_
  rw [hq, get_buildValues]
  simp [hs.spec, RequestBody.options]

/-- The runner's parser accepts every submitted query and reads back what was requested. -/
theorem buildOptions_written (resultDB logsFile : String) :
    ∃ opts, buildOptionsFromQuery x q "" resultDB logsFile = .ok opts ∧
      Carries x body build.status.allocatedConcurrency m registries opts ∧
      opts.timeout = if 0 < body.timeout then body.timeout else 300 := by
  obtain ⟨formats, hformats⟩ := hs.accepted.format
  obtain ⟨vars, hvars⟩ := hs.accepted.vars
  obtain ⟨pools, hpools, hsome, hpool⟩ := platformPools_ok hs.pools
  obtain ⟨hconcurrency, hbound⟩ := concurrency_written hs hq
  obtain ⟨cooldown, hcooldown, hgiven⟩ := cooldown_written hs hq
  have htarget : queryValue x q "target" = .ok none :=
    queryValue_absent (by simp [hq "target", get_buildValues])
  have hplatform : queryValue x q "platform" = .ok none :=
    queryValue_absent (by simp [hq "platform", get_buildValues])
  have hvars' : parseBuildVariables x (q.get "var") = .ok vars := by
    simpa [hq "var", get_buildValues, hs.spec, RequestBody.options] using hvars
  have hregs' : plainHTTPRegistryHosts x (q.get "registry-plain-http") = .ok registries := by
    simpa [hq "registry-plain-http", get_buildValues] using plainHTTPRegistryHosts_ok hs.registries
  have hrequired : (([] : List Addr).isEmpty && pools.isEmpty) = false := by simpa using hsome
  have hlimit : decide (build.status.allocatedConcurrency > maxBuildConcurrency) = false := by
    simpa using hbound
  have hdiscard : discard (parseBuildFormats x (normalizeBuildFormatValue x
      ((some (body.requestedFormat x)).getD ""))) = .ok () := by
    rw [Option.getD_some, normalize_requestedFormat, hformats]
    rfl
  have hblank : ∀ normalize, unlessBlank ((none : Option String).getD "") normalize = .ok "" :=
    fun _ => rfl
  unfold buildOptionsFromQuery
  rw [ok_bind (validateQueryKeys_written hq), ok_bind (addrs_written hq)]
  dsimp only
  refine ⟨_, bind_of_ok (platformValues_written hs hq) <| bind_of_ok hpools <|
    bind_of_ok (rejectIf_false hrequired) <| bind_of_ok hconcurrency <|
    bind_of_ok (rejectIf_false hlimit) <| bind_of_ok (timeout_written hs hq) <|
    bind_of_ok hcooldown <| bind_of_ok (failFast_written hs hq) <|
    bind_of_ok (format_written hs hq) <| bind_of_ok hdiscard <|
    bind_of_ok (verbose_written hs hq) <| bind_of_ok htarget <| bind_of_ok hplatform <|
    bind_of_ok (hblank _) <| bind_of_ok (hblank _) <| bind_of_ok hvars' <|
    bind_of_ok hregs' rfl, ?_, ?_⟩
  · refine ⟨?_, hgiven, rfl, rfl, hvars, rfl, ?_, rfl, rfl⟩
    · dsimp only [Option.getD_some]
      exact normalize_requestedFormat x body
    · intro p a ha
      obtain ⟨pool, hparse, hmem⟩ := hpool p a ha
      exact ⟨pool, hparse, List.mem_map.mpr ⟨(p, pool), hmem, rfl⟩⟩
  · rfl

end Hop

theorem targetLimit_requested {opts : Options} {body : RequestBody}
    (h : opts.timeout = body.timeout) (hpos : 0 < body.timeout) :
    opts.targetLimit = body.requestedLimit ↔ body.timeout ≤ 9223372036 := by
  unfold Options.targetLimit RequestBody.requestedLimit second
  rw [h, if_pos hpos, if_neg hpos.ne', Option.some_inj]
  constructor
  · intro heq
    have hlt := Bytes.int64_lt (body.timeout * 1000000000)
    omega
  · intro hle
    exact Bytes.int64_eq (by omega) (by omega)

/-- A request arrives as it was accepted, with the allocation as its concurrency, exactly when it has
a timeout and its nanoseconds fit a `time.Duration`. -/
theorem submission_survives_hop (x : Libraries) (r : BodyRequest) (request : CreateBuildRequest)
    (body : RequestBody) (build : KovaBuild) (m : StringMap) (registries : List String)
    (hrequest : buildRequestFromJSON x r = .ok request) (hbody : r.decoded = .ok body)
    (hspec : build.spec.build = request.options) (hpos : 1 ≤ build.status.allocatedConcurrency)
    (hle : build.status.allocatedConcurrency ≤ body.concurrency) (hm : ValidPlatformAddrs x m)
    (hr : ValidRegistries x registries) (ns resultDB logsFile : String) :
    (∃ opts, buildOptionsFromQuery x (Values.parseQuery (buildQuery ns build m registries)) ""
        resultDB logsFile = .ok opts ∧
      Carries x body build.status.allocatedConcurrency m registries opts ∧
      opts.timeout = body.timeout ∧ opts.targetLimit = body.requestedLimit) ↔
    0 < body.timeout ∧ body.timeout ≤ 9223372036 := by
  obtain ⟨body', hdecoded, haccepted, hoptions⟩ := buildRequestFromJSON_ok x hrequest
  cases hbody.symm.trans hdecoded
  obtain ⟨opts, hopts, hcarries, ht⟩ := buildOptions_written
    ⟨haccepted, hspec.trans hoptions, hpos, hle, hm, hr⟩
    (fun k => Values.get_parseQuery_encode (buildValues ns build m registries) k) resultDB logsFile
  constructor
  · rintro ⟨opts', hopts', -, htimeout, hlimit⟩
    cases hopts.symm.trans hopts'
    have hpos : 0 < body.timeout := by
      by_contra hneg
      rw [if_neg hneg] at ht
      omega
    exact ⟨hpos, (targetLimit_requested htimeout hpos).mp hlimit⟩
  · rintro ⟨hpos, hle⟩
    rw [if_pos hpos] at ht
    exact ⟨opts, hopts, hcarries, ht, (targetLimit_requested ht hpos).mpr hle⟩

/-- Libraries that know ASCII letters only and accept every name. -/
def asciiLibraries : Libraries where
  toLibrary := plainLibrary
  parseDuration _ := some 0
  durationString _ := "0s"
  parseURL _ := some { scheme := "https", host := "h", user := false, rawQuery := "", fragment := "" }
  newDigest := .ok
  newRegistry _ := .ok ()
  splitHostPort _ := none
  joinHostPort host port := host ++ ":" ++ port
  parseIP _ := none
  lookupHost _ := none

def sampleBody (timeout : Int) (h : FitsInt timeout) : RequestBody where
  sourceURI := "https://h/s"
  sourceDigest := "sha256:" ++ String.ofList (List.replicate 64 'a')
  targets := [{ target := "r/i:t", platform := platformLinuxAMD64 }]
  concurrency := 1
  timeout := timeout
  failFast := true
  buildVariables := ["KOVA_A=1"]
  fits := ⟨by decide, h⟩

def sampleRequest (timeout : Int) (h : FitsInt timeout) : BodyRequest where
  mediaType := some "application/json"
  decoded := .ok (sampleBody timeout h)
  atEOF := true

def sampleCreated (timeout : Int) : CreateBuildRequest where
  targets := [{ target := "r/i:t", platform := platformLinuxAMD64 }]
  source :=
    { uri := "https://h/s", digest := "sha256:" ++ String.ofList (List.replicate 64 'a') }
  options :=
    { format := "oci", concurrency := 1, timeout := timeout, failFast := true,
      vars := ["KOVA_A=1"] }

def sampleBuild (timeout : Int) : KovaBuild where
  name := "b"
  uid := "u"
  spec :=
    { requester := { username := "n", uid := "" }, targets := (sampleCreated timeout).targets,
      source := (sampleCreated timeout).source, build := (sampleCreated timeout).options }
  status := { allocatedConcurrency := 1 }

def samplePools : StringMap := Finmap.singleton platformLinuxAMD64 "w:1"

theorem samplePools_valid : ValidPlatformAddrs asciiLibraries samplePools where
  nonempty h := by
    have hlook := congrArg (Finmap.lookup platformLinuxAMD64) h
    simp [samplePools] at hlook
  platform p hp := .inl (by simpa [samplePools] using hp)
  address p a ha := by
    have hp : p = platformLinuxAMD64 := by
      simpa [samplePools] using Finmap.mem_of_lookup_eq_some ha
    subst hp
    have hwa : "w:1" = a := by simpa [samplePools] using ha
    subst hwa
    exact ⟨by decide, by decide, [{ original := "w:1", addr := "tcp://w:1", nodeIP := "" }],
      by decide +kernel⟩

theorem sampleRegistries_valid : ValidRegistries asciiLibraries ["r:5000"] := by
  intro r hr
  rw [List.mem_singleton] at hr
  subst hr
  exact ⟨by decide, by decide, rfl⟩

theorem submission_survives_hop_ten_minutes :
    ∃ opts, buildOptionsFromQuery asciiLibraries
        (Values.parseQuery (buildQuery "kova" (sampleBuild 600) samplePools ["r:5000"])) "" "" "" =
        .ok opts ∧
      opts.targetLimit = some 600000000000 := by
  obtain ⟨opts, hopts, -, -, hlimit⟩ := (submission_survives_hop asciiLibraries
    (sampleRequest 600 (by decide)) (sampleCreated 600) (sampleBody 600 (by decide))
    (sampleBuild 600) samplePools ["r:5000"] (by decide +kernel) rfl rfl (by decide) (by decide)
    samplePools_valid sampleRegistries_valid "kova" "" "").mpr ⟨by decide, by decide⟩
  exact ⟨opts, hopts, hlimit⟩

/-- A request without a limit is accepted, and the runner limits every target to five minutes. -/
theorem zero_timeout_limited :
    buildRequestFromJSON asciiLibraries (sampleRequest 0 (by decide)) = .ok (sampleCreated 0) ∧
      ∃ opts, buildOptionsFromQuery asciiLibraries
          (Values.parseQuery (buildQuery "kova" (sampleBuild 0) samplePools ["r:5000"])) "" "" "" =
          .ok opts ∧
        (sampleBody 0 (by decide)).requestedLimit = none ∧ opts.targetLimit = some 300000000000 := by
  have hrequest : buildRequestFromJSON asciiLibraries (sampleRequest 0 (by decide)) =
      .ok (sampleCreated 0) := by
    decide +kernel
  obtain ⟨body, hbody, haccepted, hoptions⟩ := buildRequestFromJSON_ok asciiLibraries hrequest
  cases hbody
  have hsubmitted : Submitted asciiLibraries (sampleBody 0 (by decide)) (sampleBuild 0) samplePools
      ["r:5000"] :=
    ⟨haccepted, hoptions, by decide, by decide, samplePools_valid, sampleRegistries_valid⟩
  obtain ⟨opts, hopts, -, ht⟩ := buildOptions_written hsubmitted
    (fun k => Values.get_parseQuery_encode (buildValues "kova" _ _ _) k) "" ""
  have htimeout : opts.timeout = 300 := ht
  refine ⟨hrequest, opts, hopts, rfl, ?_⟩
  rw [Options.targetLimit, htimeout]
  decide

end KovaService.Submission
