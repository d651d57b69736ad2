import MultiClaw.Base.Dicts
import MultiClaw.Base.Hmac
import MultiClaw.Planner.Execution
import MultiClaw.Planner.Selection

/-! Which completions of a step can be stored: redaction may lengthen a text past its limit. -/
namespace MultiClaw.PlanExecution

open Base Transaction Regex Redaction

variable {host : Host} {env : Env} {db : Db} {context : TenantContext} {runId memoryId : String}
  {started : StartedPlanStep} {completion : PlanStepCompletion} {runner : RunnerState}
  {document : PlanStepResultDocument} {s : String}

/-- The field constraints of the completion class. -/
def PlanStepCompletion.fieldsValid (c : PlanStepCompletion) : Bool :=
  1 ≤ c.summary.length && c.summary.length ≤ 4000 && c.evidence.length ≤ 20 &&
    c.evidence.all fun e => 1 ≤ e.length && e.length ≤ 2000

/-! Redaction leaves no text empty -/

theorem length_rewrite_pos {next : Place → Option (List Char × Place)}
    (hnext : ∀ p t q, next p = some (t, q) → t ≠ []) (h : 1 ≤ s.length) :
    1 ≤ (rewrite next s).length := by
  have hne : s.toList ≠ [] := by
    rw [← String.length_toList] at h
    exact List.ne_nil_of_length_pos h
  have hrewrite := rewriteFrom_ne_nil hnext (n := s.length) (p := ⟨[], s.toList⟩) (by omega) hne
  rw [rewrite, ← String.length_toList, String.toList_ofList]
  exact List.length_pos_iff.mpr hrewrite

theorem replaceBy_ne_nil {r : Regex} {replacement : String} (h : replacement.toList ≠ [])
    (p : Place) (t : List Char) (q : Place) (hnext : replaceBy r replacement p = some (t, q)) :
    t ≠ [] := by
  obtain ⟨_, -, heq⟩ := Option.map_eq_some_iff.mp hnext
  cases heq
  exact h

theorem replaceAssignment_ne_nil (p : Place) (t : List Char) (q : Place)
    (hnext : replaceAssignment host p = some (t, q)) : t ≠ [] := by
  obtain ⟨_, -, hvalue⟩ := List.exists_of_findSome?_eq_some hnext
  obtain ⟨_, -, heq⟩ := Option.map_eq_some_iff.mp hvalue
  cases heq
  simp

theorem replacePath_ne_nil {r : Regex} (p : Place) (t : List Char) (q : Place)
    (hnext : replacePath r p = some (t, q)) : t ≠ [] := by
  obtain ⟨e, hmatch, heq⟩ := Option.map_eq_some_iff.mp hnext
  cases heq
  have htakes : q.after.length < p.after.length := by
    simpa using List.find?_some hmatch
  have hbetween : textBetween p q ≠ [] := by
    refine List.ne_nil_of_length_pos ?_
    rw [textBetween, List.length_take]
    omega
  unfold replacePathMatch
  split_ifs
  · exact hbetween
  · exact hbetween
  · decide

theorem length_redactString_pos (h : 1 ≤ s.length) : 1 ≤ (redactString host s).length := by
  unfold redactString
  simp only [List.foldl_cons, List.foldl_nil]
  iterate 4 refine length_rewrite_pos replacePath_ne_nil ?_
  refine length_rewrite_pos (replaceBy_ne_nil (by decide)) ?_
  refine length_rewrite_pos replaceAssignment_ne_nil ?_
  refine length_rewrite_pos (replaceBy_ne_nil (by decide)) ?_
  exact length_rewrite_pos (replaceBy_ne_nil (by decide)) h

/-! Building and storing a document -/

theorem isSha256_sha256Hex : isSha256 (sha256Hex s) = true := by
  have hall : "0123456789abcdef".toList.all isLowerHex = true := by decide
  have hlower : ∀ c ∈ "0123456789abcdef".toList, isLowerHex c = true := List.all_eq_true.mp hall
  simp only [isSha256, sha256Hex, Sha256.length_hexdigest, beq_self_eq_true, Bool.true_and,
    List.all_eq_true]
  exact fun c hc => hlower c (Sha256.mem_hexdigest hc)

/-- What the document copies from a request: ids, version, attempt and digest as the tables hold
them, steps with legal keys, and at most one result for each of twenty steps. -/
structure StartedPlanStep.WellFormed (runId : String) (started : StartedPlanStep) : Prop where
  planId : isUuid started.plan.planId = true
  planVersion : 1 ≤ started.plan.currentVersion
  runId : isUuid runId = true
  stepId : isUuid started.step.stepId = true
  stepRunId : isUuid started.stepRun.stepRunId = true
  attempt : 1 ≤ started.stepRun.attempt ∧ started.stepRun.attempt ≤ 20
  definition : isSha256 started.step.definitionDigest = true
  keys : ∀ step ∈ started.plan.current.steps, isLogicalStepKey step.logicalStepKey = true
  few : started.dependencyResults.length ≤ 20

/-- The texts of a completion are within their limits after the redaction. -/
def PlanStepCompletion.FitsRedacted (host : Host) (c : PlanStepCompletion) : Prop :=
  (redactString host c.summary).length ≤ 4000 ∧
    ∀ e ∈ c.evidence, (redactString host e).length ≤ 2000

/-- Every dependency result names a step of the current version. -/
def StartedPlanStep.NamesCurrent (started : StartedPlanStep) : Prop :=
  ∀ result ∈ started.dependencyResults,
    (started.plan.current.stepById? result.stepId).isSome = true

/-- Every dependency key of the document is the key of a step, and each value is a digest. -/
theorem dependencyDigests_valid (h : started.WellFormed runId)
    {digests : List (String × String)}
    (hdigests : started.dependencyResults.mapM (fun result =>
      match started.plan.current.stepById? result.stepId with
      | none => Except.error PlanError.key
      | some step => Except.ok (step.logicalStepKey, result.digest)) = .ok digests) :
    digests.length ≤ 20 ∧
      ∀ m ∈ digests, isLogicalStepKey m.1 = true ∧ isSha256 m.2 = true := by
  rw [mapM_eq_ok_iff] at hdigests
  refine ⟨hdigests.length_eq ▸ h.few, fun m hm => ?_⟩
  obtain ⟨result, -, hresult⟩ := Forall₂.exists_left hdigests hm
  split at hresult
  · cases hresult
  · rename_i step hstep
    cases hresult
    exact ⟨h.keys step (List.mem_of_find?_eq_some hstep), isSha256_sha256Hex⟩

/-- The document before its fields are checked. -/
def resultDocument (host : Host) (runId : String) (started : StartedPlanStep)
    (completion : PlanStepCompletion) (runner : RunnerState)
    (dependencyResultDigests : List (String × String)) : PlanStepResultDocument :=
  { planId := started.plan.planId, planVersion := started.plan.currentVersion, runId
    stepId := started.step.stepId, stepRunId := started.stepRun.stepRunId
    attempt := started.stepRun.attempt, status := completion.status
    summary := redactString host completion.summary
    evidence := completion.evidence.map (redactString host)
    definitionDigest := started.step.definitionDigest, dependencyResultDigests
    toolCatalogDigest := runner.toolDigest host, policyDigest := runner.policyDigest host
    skillSetDigest := runner.skillDigest host }

theorem resultDocument_fieldsValid_iff (h : started.WellFormed runId)
    (hc : completion.fieldsValid = true) {digests : List (String × String)}
    (hfew : digests.length ≤ 20)
    (hdigests : ∀ m ∈ digests, isLogicalStepKey m.1 = true ∧ isSha256 m.2 = true) :
    (resultDocument host runId started completion runner digests).fieldsValid = true ↔
      completion.FitsRedacted host := by
  simp only [PlanStepCompletion.fieldsValid, Bool.and_eq_true, decide_eq_true_eq,
    List.all_eq_true] at hc
  obtain ⟨⟨⟨hsummary, -⟩, hevidence⟩, hitems⟩ := hc
  have hdeps : (digests.all fun m => isLogicalStepKey m.1 && isSha256 m.2) = true := by
    simpa [List.all_eq_true] using fun a b hm => hdigests (a, b) hm
  have hpos : ∀ e ∈ completion.evidence, 1 ≤ (redactString host e).length :=
    fun e he => length_redactString_pos (hitems e he).1
  have hall : ((completion.evidence.map (redactString host)).all fun e =>
      1 ≤ e.length && e.length ≤ 2000) = true ↔
      ∀ e ∈ completion.evidence, (redactString host e).length ≤ 2000 := by
    simp only [List.all_map, List.all_eq_true, Function.comp_apply, Bool.and_eq_true,
      decide_eq_true_eq]
    exact ⟨fun hle e he => (hle e he).2, fun hle e he => ⟨hpos e he, hle e he⟩⟩
  simp only [PlanStepResultDocument.fieldsValid, Bool.and_eq_true, decide_eq_true_eq]
  simp only [resultDocument, List.length_map, hall, hdeps, h.planId, h.planVersion, h.runId,
    h.stepId, h.stepRunId, h.attempt.1, h.attempt.2, h.definition, hfew, hevidence,
    length_redactString_pos hsummary, RunnerState.toolDigest, RunnerState.policyDigest,
    RunnerState.skillDigest, canonicalDigest, isSha256_sha256Hex, true_and, and_true,
    PlanStepCompletion.FitsRedacted]

/-- A document is built from a valid completion as long as redaction keeps it valid. -/
theorem buildResultDocument_iff (h : started.WellFormed runId)
    (hc : completion.fieldsValid = true) :
    (∃ document, buildResultDocument host runId started completion runner = .ok document) ↔
      started.NamesCurrent ∧ completion.FitsRedacted host := by
  constructor
  · rintro ⟨document, hbuild⟩
    obtain ⟨digests, hdigests, hdocument⟩ := bind_eq_ok.mp hbuild
    obtain ⟨hfew, hvalid⟩ := dependencyDigests_valid h hdigests
    refine ⟨fun result hresult => ?_, ?_⟩
    · obtain ⟨m, -, hm⟩ := Forall₂.exists_right (mapM_eq_ok_iff.mp hdigests) hresult
      split at hm
      · cases hm
      · rename_i hstep
        rw [hstep]
        rfl
    · have hfields : (resultDocument host runId started completion runner digests).fieldsValid =
          true := by
        by_contra hinvalid
        cases (if_neg hinvalid).symm.trans hdocument
      exact (resultDocument_fieldsValid_iff h hc hfew hvalid).mp hfields
  · rintro ⟨hnames, hfits⟩
    obtain ⟨digests, hdigests⟩ : ∃ digests, started.dependencyResults.mapM (fun result =>
        match started.plan.current.stepById? result.stepId with
        | none => Except.error PlanError.key
        | some step => Except.ok (step.logicalStepKey, result.digest)) = .ok digests := by
      refine exists_mapM_eq_ok fun result hresult => ?_
      obtain ⟨step, hstep⟩ := Option.isSome_iff_exists.mp (hnames result hresult)
      exact ⟨(step.logicalStepKey, result.digest), by rw [hstep]⟩
    obtain ⟨hfew, hvalid⟩ := dependencyDigests_valid h hdigests
    refine ⟨resultDocument host runId started completion runner digests,
      bind_eq_ok.mpr ⟨digests, hdigests, ?_⟩⟩
    exact if_pos ((resultDocument_fieldsValid_iff h hc hfew hvalid).mpr hfits)

/-- The memory entry of a document. -/
def resultEntry (context : TenantContext) (document : PlanStepResultDocument)
    (memoryId : String) : MemoryEntry :=
  { id := memoryId, content := document.canonicalJson, type := "plan_step_result"
    role := "assistant", sessionId := context.sessionId
    metadata := .obj [(.text "schema_version", .int 1),
      (.text "plan_id", jsonString document.planId),
      (.text "step_run_id", jsonString document.stepRunId)] }

/-- Under a fresh id a document is stored unless it is too long. -/
theorem persistPlanStepResult_iff (hrun : context.runId.getD "" ≠ "")
    (hfresh : ∀ m ∈ db.memory.rows, m.id ≠ memoryId) :
    (∃ resultRef db', (persistPlanStepResult context document memoryId).run env db =
        .ok (resultRef, db')) ↔
      utf8Length document.canonicalJson ≤ maxPlanStepResultBytes := by
  obtain ⟨session, hsession, hne⟩ : ∃ session, context.sessionId = some session ∧
      session ≠ "" := by
    have hgetD := context.sessionId_ne hrun
    cases hs : context.sessionId with
    | none => simp [hs] at hgetD
    | some session => exact ⟨session, rfl, by simpa [hs] using hgetD⟩
  unfold persistPlanStepResult
  rw [if_neg (by simp [hsession])]
  by_cases hlong : maxPlanStepResultBytes < utf8Length document.canonicalJson
  · rw [if_pos hlong]
    refine ⟨?_, fun h => by omega⟩
    rintro ⟨_, _, h⟩
    cases h
  · rw [if_neg hlong]
    refine ⟨fun _ => by omega, fun _ => ?_⟩
    have hprepared : MemoryRepository.prepareEntry context (resultEntry context document memoryId) =
        .ok (resultEntry context document memoryId) := by
      simp [MemoryRepository.prepareEntry, resultEntry, hsession, hne]
    obtain ⟨row, memory, -, -, hsave⟩ : ∃ row memory, row = _ ∧
        db.memory.insert? row = some memory ∧
        (MemoryRepository.save context (resultEntry context document memoryId)).run env db =
          .ok (row, { db with memory }) :=
      MemoryRepository.save_fresh hprepared hfresh rfl
    exact ⟨"memory:" ++ memoryId, { db with memory },
      run_bind_of_ok (run_mapError_eq_ok.mpr hsave)⟩

/-- The first step of the sample plan, in its first attempt. -/
def sampleStarted : StartedPlanStep :=
  let id := "00000000-0000-4000-8000-000000000001"
  let digest := String.ofList (List.replicate 64 '0')
  { plan :=
      { context := { tenantId := "t", workspaceId := "w", sessionId := some "s" }
        planId := id, sourceMessageId := "m", triggerMode := .explicit, status := .approved
        currentVersion := 1, approvedVersion := some 1, aggregateVersion := 1, createdAt := 0
        updatedAt := 0, current := sampleVersion, versions := [sampleVersion], decisions := [] }
    step := ⟨⟨"t", "w", "s", id⟩, 1, id, "a", none, 1, "A", "d", "e", 2, digest⟩
    stepRun := ⟨⟨"t", "w", "s", id⟩, 1, id, id, id, 1, .running, none, none, none, none, none, none,
      1, 0, none⟩
    dependencyResults := [] }

theorem sampleStarted_wellFormed :
    sampleStarted.WellFormed "00000000-0000-4000-8000-000000000001" := by
  constructor <;> decide +kernel

section Dashes

variable {before rest : List Char}

/-- Nothing that is replaced starts at a dash, where the text starts or behind a dash. -/
def Skips (next : Place → Option (List Char × Place)) : Prop :=
  ∀ before rest, before.head?.all (· == '-') = true → next ⟨before, '-' :: rest⟩ = none

theorem ends_boundary_dash (r : Regex) (h : before.head?.all (· == '-') = true) :
    ends (seq (SecretPattern.boundary .ascii) r) ⟨before, '-' :: rest⟩ = [] := by
  cases before with
  | nil => rfl
  | cons c before =>
    simp only [List.head?_cons, Option.all_some, beq_iff_eq] at h
    subst h
    rfl

theorem ends_notAfter_dash (f : Char → Bool) {c : Char} (hc : '-' ≠ c) (r : Regex) :
    ends (seq (notAfter f) (seq (char (· == c)) r)) ⟨before, '-' :: rest⟩ = [] := by
  simp only [ends]
  split_ifs
  · rfl
  · simp [hc]

/-- The patterns of paths. -/
def pathPatterns : List Regex :=
  [absolutePath .ascii, relativePath .ascii, drivePath .ascii, sharePath .ascii]

theorem ends_path_dash {r : Regex} (hr : r ∈ pathPatterns)
    (h : before.head?.all (· == '-') = true) : ends r ⟨before, '-' :: rest⟩ = [] := by
  simp only [pathPatterns, List.mem_cons, List.not_mem_nil, or_false] at hr
  obtain rfl | rfl | rfl | rfl := hr
  · exact ends_notAfter_dash _ (by decide) _
  · exact ends_notAfter_dash _ (by decide) _
  · exact ends_boundary_dash _ h
  · exact ends_notAfter_dash _ (by decide) _

theorem skips_replaceBy (r : Regex) (t : String) :
    Skips (replaceBy (seq (SecretPattern.boundary .ascii) r) t) := by
  intro before rest hbefore
  rw [replaceBy, matchAt, ends_boundary_dash r hbefore]
  rfl

theorem skips_replaceAssignment : Skips (replaceAssignment .ascii) := by
  intro before rest hbefore
  rw [replaceAssignment, assignedName, ends_boundary_dash _ hbefore]
  rfl

theorem skips_replacePath {r : Regex}
    (h : ∀ before rest, before.head?.all (· == '-') = true → ends r ⟨before, '-' :: rest⟩ = []) :
    Skips (replacePath r) := by
  intro before rest hbefore
  rw [replacePath, matchAt, h before rest hbefore]
  rfl

theorem rewrite_dashes {next : Place → Option (List Char × Place)} (hnext : Skips next) (k : Nat)
    {rest rest' : List Char}
    (hrest : rewriteFrom next rest.length ⟨List.replicate k '-', rest⟩ = rest') :
    rewrite next (String.ofList (List.replicate k '-' ++ rest)) =
      String.ofList (List.replicate k '-' ++ rest') := by
  have hlength : (String.ofList (List.replicate k '-' ++ rest)).length = k + rest.length := by
    rw [← String.length_toList, String.toList_ofList, List.length_append, List.length_replicate]
  rw [rewrite, hlength, String.toList_ofList,
    rewriteFrom_replicate hnext k rest.length rest rfl, List.append_nil, hrest]

end Dashes

/-- A long text with a short end. -/
def dashes (rest : String) : String := String.ofList (List.replicate 3992 '-' ++ rest.toList)

/-- The secret at the end is replaced, and nothing else. -/
theorem redactString_dashes :
    redactString .ascii (dashes "secret=a") = dashes "secret=[REDACTED]" := by
  have hauthorization : rewrite (replaceBy (authorizationBearer .ascii)
      "Authorization: [REDACTED]") (dashes "secret=a") = dashes "secret=a" :=
    rewrite_dashes (skips_replaceBy _ _) _ (by decide +kernel)
  have hbearer : rewrite (replaceBy (bearer .ascii) "Bearer [REDACTED]") (dashes "secret=a") =
      dashes "secret=a" := rewrite_dashes (skips_replaceBy _ _) _ (by decide +kernel)
  have hassignment : rewrite (replaceAssignment .ascii) (dashes "secret=a") =
      dashes "secret=[REDACTED]" := rewrite_dashes skips_replaceAssignment _ (by decide +kernel)
  have htoken : rewrite (replaceBy (token .ascii) redacted) (dashes "secret=[REDACTED]") =
      dashes "secret=[REDACTED]" := rewrite_dashes (skips_replaceBy _ _) _ (by decide +kernel)
  have hrest : ∀ r ∈ pathPatterns, rewriteFrom (replacePath r) "secret=[REDACTED]".toList.length
      ⟨List.replicate 3992 '-', "secret=[REDACTED]".toList⟩ = "secret=[REDACTED]".toList := by
    decide +kernel
  have hpaths : ∀ r ∈ pathPatterns,
      rewrite (replacePath r) (dashes "secret=[REDACTED]") = dashes "secret=[REDACTED]" :=
    fun r hr => rewrite_dashes (skips_replacePath fun _ _ h => ends_path_dash hr h) _ (hrest r hr)
  simp only [pathPatterns, List.forall_mem_cons] at hpaths
  simp only [redactString, hauthorization, hbearer, hassignment, htoken, List.foldl_cons,
    List.foldl_nil, hpaths]

theorem summary_le_of_build
    (h : buildResultDocument host runId started completion runner = .ok document) :
    (redactString host completion.summary).length ≤ 4000 := by
  obtain ⟨digests, -, hdocument⟩ := bind_eq_ok.mp h
  dsimp only at hdocument
  split at hdocument
  · rename_i hvalid
    simp only [PlanStepResultDocument.fieldsValid, Bool.and_eq_true, decide_eq_true_eq] at hvalid
    exact hvalid.1.1.1.1.1.1.1.1.2
  · cases hdocument

theorem length_dashes (rest : String) : (dashes rest).length = 3992 + rest.length := by
  have h : ∀ k : Nat, (String.ofList (List.replicate k '-' ++ rest.toList)).length =
      k + rest.length := by
    intro k
    rw [← String.length_toList, String.toList_ofList, List.length_append, List.length_replicate,
      String.length_toList]
  exact h 3992

end MultiClaw.PlanExecution
