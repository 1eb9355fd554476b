import Mathlib.Data.List.Basic
import StateCheck.Proofs.Chunks
import StateCheck.Proofs.Run.Plain
import StateCheck.Proofs.Run.Turns
/-!
What attempts of Map and Parallel states make of their inner scopes.

Both obey one law (`Run.Aggregates`): when all inner scopes succeed the attempt concludes with their
outputs in order, and else it ends with the fault of the first that fails. The inputs of iterations
are the items of a Map state or batches of them (`Run.InputsOf`).
-/
namespace StateCheck
set_option autoImplicit false

theorem Process.Plain.bind_of_ok {α β : Type} {p : Process α} {f : α → Process β} (hp : p.Plain)
    {s : Session} {a : α} (h : (p s).result = .ok a) : (p >>= f) s = f a (p s).session := by
  have hnil : (p s).log = [] := by
    rw [hp s, h]
    rfl
  rw [Process.bind_of_ok h, hnil]
  rfl

theorem Process.result_bind_pure {α β : Type} (p : Process α) (f : α → β) (s : Session) :
    ((p >>= fun a => Pure.pure (f a)) s).result = (p s).result.map f := by
  cases h : (p s).result with
  | error fault => rw [Process.bind_of_error h]; rfl
  | ok a => rw [Process.bind_of_ok h]; rfl

namespace Run

/-! ## The law of inner scopes -/

/-- The outcome of an attempt that runs inner scopes from a session, records their paths, and
concludes with their outputs. -/
structure Aggregates (jobs : List (Session → SubRun)) (s : Session)
    (recorded : List (List String) → Bool → Event) (conclude : List Json → Process Json)
    (attempt : Outcome Json) : Prop where
  /-- When all succeed, there is one path for each of them. -/
  completed : ∀ outputs : List Json, (turns jobs s).map (·.output) = outputs.map Except.ok →
    ∃ paths, (turns jobs s).map (·.path) = paths.map some ∧
      attempt = (conclude outputs (sessionBefore jobs s jobs.length)).after
        ((turns jobs s).flatMap (·.log) ++ [recorded paths true])
  /-- After the first that fails none is run; it has a path if it came to run its scope. -/
  failed : ∀ (k : Nat) (turn : SubRun) (fault : Fault), (turns jobs s)[k]? = some turn →
    turn.output = .error fault → (∀ before ∈ (turns jobs s).take k, ∃ v, before.output = .ok v) →
    ∃ paths, paths = ((turns jobs s).take (k + 1)).filterMap (·.path) ∧
      paths.length = (if turn.path.isSome then k + 1 else k) ∧
      attempt = ⟨.error fault,
        ((turns jobs s).take (k + 1)).flatMap (·.log) ++ [recorded paths false], turn.session⟩

theorem map_some_filterMap_path {runs : List SubRun} (h : ∀ a ∈ runs, a.path.isSome = true) :
    (runs.filterMap (·.path)).map some = runs.map (·.path) := by
  induction runs with
  | nil => rfl
  | cons a rest ih =>
    obtain ⟨ha, hrest⟩ := List.forall_mem_cons.mp h
    obtain ⟨path, hpath⟩ := Option.isSome_iff_exists.mp ha
    rw [List.filterMap_cons_some hpath, List.map_cons, List.map_cons, ih hrest, hpath]

theorem collect_aggregates {jobs : List (Session → SubRun)} {s : Session}
    (recorded : List (List String) → Bool → Event) (conclude : List Json → Process Json)
    (hpath : ∀ turn ∈ turns jobs s, ∀ v, turn.output = .ok v → turn.path.isSome = true) :
    Aggregates jobs s recorded conclude ((collect jobs recorded >>= conclude) s) where
  completed outputs h := by
    have hall : ∀ turn ∈ turns jobs s, turn.path.isSome = true := by
      intro turn hturn
      have hmem := List.mem_map_of_mem (f := (·.output)) hturn
      rw [h] at hmem
      obtain ⟨v, -, hv⟩ := List.mem_map.mp hmem
      exact hpath turn hturn v hv.symm
    have hresult : (collect jobs recorded s).result = .ok outputs := by
      simp only [collect, inOrder_of_all h]
    refine ⟨(turns jobs s).filterMap (·.path), (map_some_filterMap_path hall).symm, ?_⟩
    rw [Process.bind_of_ok hresult]
    simp only [collect, inOrder_of_all h]
    rfl
  failed k turn fault hk hfault hbefore := by
    have hsplit : (turns jobs s).take (k + 1) = (turns jobs s).take k ++ [turn] := by
      rw [List.take_add_one, hk]
      rfl
    -- Those before it have succeeded, so that only the one that fails may have no path.
    have hall : ∀ before ∈ (turns jobs s).take k, before.path.isSome = true := by
      intro before hmem
      obtain ⟨v, hv⟩ := hbefore before hmem
      exact hpath before (List.mem_of_mem_take hmem) v hv
    have hlength : (((turns jobs s).take k).filterMap (·.path)).length = k := by
      have hlt := (List.getElem?_eq_some_iff.mp hk).1
      have hmap := congrArg List.length (map_some_filterMap_path hall)
      rw [List.length_map, List.length_map, List.length_take] at hmap
      omega
    refine ⟨_, rfl, ?_, ?_⟩
    · rw [hsplit, List.filterMap_append, List.length_append, hlength, filterMap_path_cons]
      cases turn.path <;> rfl
    · have hresult : (collect jobs recorded s).result = .error fault := by
        simp only [collect, inOrder_of_first hk hfault hbefore]
      rw [Process.bind_of_error hresult]
      simp only [collect, inOrder_of_first hk hfault hbefore]
      rfl

/-! ## The inputs of iterations -/

/-- The items of batches. -/
structure Batches (batcher : ItemBatcher) (items : List Json) (parts : List (List Json)) :
    Prop where
  nonempty : ∀ part ∈ parts, part ≠ []
  flatten : parts.flatten = items
  full : ∀ n, batcher.maxItemsPerBatch = some n → ∀ part ∈ parts.dropLast, part.length = n
  single : batcher.maxItemsPerBatch = none → items ≠ [] → parts = [items]
  none : items = [] → parts = []

/-- The inputs of iterations: the items, or objects with batches of them. -/
def InputsOf (batcher : Option ItemBatcher) (items inputs : List Json) : Prop :=
  match batcher with
  | none => inputs = items
  | some b => ∃ parts, Batches b items parts ∧ (∀ input ∈ inputs, input.isObject = true) ∧
    inputs.map (·.get? "Items") = parts.map fun part => some (.arr part)

theorem batchSize_pos (batcher : ItemBatcher) (items : List Json) :
    0 < batchSize batcher items := by
  unfold batchSize
  split
  · split <;> omega
  · omega

theorem chunks_batches (batcher : ItemBatcher) (items : List Json) :
    Batches batcher items (chunks (batchSize batcher items) items) where
  nonempty _ := ne_nil_of_mem_chunks
  flatten := flatten_chunks (batchSize_pos batcher items) items
  full n hn part hpart := by
    have hlength := length_of_mem_dropLast_chunks hpart
    have hsize : batchSize batcher items = if n = 0 then max items.length 1 else n := by
      rw [batchSize, hn]
    by_cases hzero : n = 0
    · -- A size of zero stands for a single batch, and nothing comes before that.
      rw [if_pos hzero] at hsize
      rw [dropLast_chunks_of_length_le (by omega)] at hpart
      cases hpart
    · rw [if_neg hzero] at hsize
      rw [hlength, hsize]
  single hnone hne := by
    refine chunks_of_length_le hne ?_
    rw [batchSize, hnone]
    exact Nat.le_max_left _ _
  none hnil := by rw [hnil, chunks_nil]

theorem batch_object (shared : Option Json) (part : List Json) :
    (batch shared part).isObject = true ∧ (batch shared part).get? "Items" = some (.arr part) := by
  cases shared with
  | none => exact ⟨rfl, rfl⟩
  | some v => exact ⟨rfl, rfl⟩

theorem batches_inputsOf (batcher : ItemBatcher) (shared : Option Json) (items : List Json) :
    InputsOf (some batcher) items
      ((chunks (batchSize batcher items) items).map (batch shared)) := by
  refine ⟨_, chunks_batches batcher items, fun input hinput => ?_, ?_⟩
  · obtain ⟨part, -, rfl⟩ := List.mem_map.mp hinput
    exact (batch_object shared part).1
  · rw [List.map_map]
    exact List.map_congr_left fun part _ => (batch_object shared part).2

theorem iterationInputs_of_template {b : ItemBatcher} {t : Json} (items : List Json)
    (effective ctx : Json) (h : b.batchInput = some t) :
    iterationInputs (some b) items effective ctx =
      Process.draw (Template.render ⟨effective, ctx⟩ t) >>= fun v =>
        pure ((chunks (batchSize b items) items).map (batch (some v))) := by
  simp only [iterationInputs, h]
  rfl

theorem iterationInputs_reading (batcher : Option ItemBatcher) (items : List Json)
    (effective ctx : Json) (s : Session) :
    (∀ inputs, (iterationInputs batcher items effective ctx s).result = .ok inputs →
      InputsOf batcher items inputs) ∧
    ∀ fault, (iterationInputs batcher items effective ctx s).result = .error fault →
      ∃ t, batcher.bind (·.batchInput) = some t ∧
        (Process.draw (Template.render ⟨effective, ctx⟩ t) s).result = .error fault := by
  cases batcher with
  | none =>
    refine ⟨fun inputs h => ?_, fun fault h => by cases h⟩
    cases h
    rfl
  | some b =>
    rw [Option.bind_some]
    cases hinput : b.batchInput with
    | none =>
      simp only [iterationInputs, hinput]
      refine ⟨fun inputs h => ?_, fun fault h => by cases h⟩
      cases h
      exact batches_inputsOf b none items
    | some t =>
      have hresult := Process.result_bind_pure (Process.draw (Template.render ⟨effective, ctx⟩ t))
        (fun v => (chunks (batchSize b items) items).map (batch (some v))) s
      rw [← iterationInputs_of_template items effective ctx hinput] at hresult
      rw [hresult]
      cases hdraw : (Process.draw (Template.render ⟨effective, ctx⟩ t) s).result with
      | error fault =>
        refine ⟨fun inputs h => (by cases h), fun fault h => ⟨t, rfl, ?_⟩⟩
        cases h
        exact hdraw
      | ok v =>
        refine ⟨fun inputs h => ?_, fun fault h => by cases h⟩
        cases h
        exact batches_inputsOf b (some v) items

/-! ## Raw results -/

/-- What a result writer says about where it writes. -/
def writerParameters (writer effective ctx : Json) : Process Json :=
  match writerTemplate? writer with
  | none => pure Json.empty
  | some t => .draw (Template.render ⟨effective, ctx⟩ t)

theorem writerSummary_reading (name : String) (writer effective ctx : Json) (context : Context)
    (s : Session) :
    (∀ fault, (writerParameters writer effective ctx s).result = .error fault →
      (writerSummary name writer effective ctx context s).result = .error fault) ∧
    ∀ parameters, (writerParameters writer effective ctx s).result = .ok parameters →
      ∃ summary, (writerSummary name writer effective ctx context s).result = .ok summary ∧
        summary.isObject = true ∧
        summary.get? "MapRunArn" = some (.str (context.mapRunArn name)) ∧
        (summary.get? "ResultWriterDetails").isSome = true := by
  have hresult : ∃ details : Json → Json,
      (writerSummary name writer effective ctx context s).result =
      (writerParameters writer effective ctx s).result.map fun parameters =>
        .object [("MapRunArn", .str (context.mapRunArn name)),
          ("ResultWriterDetails", details parameters)] := by
    unfold writerSummary writerParameters
    rw [← writerTemplate?]
    cases writerTemplate? writer with
    | none => exact ⟨_, Process.result_bind_pure (pure Json.empty) _ s⟩
    | some t => exact ⟨_, Process.result_bind_pure (Process.draw _) _ s⟩
  obtain ⟨details, hresult⟩ := hresult
  refine ⟨fun fault h => ?_, fun parameters h => ⟨_, by rw [hresult, h]; rfl, rfl, rfl, rfl⟩⟩
  rw [hresult, h]
  rfl

/-! ## Attempts -/

theorem iterationJobs_path_of_ok {name : String} {spec : MapSpec} {runItem : ScopeRunner}
    {context : Context} {label : String} {effective : Json} {retryCount : Nat}
    {order : List (Nat × Json)} {s : Session} {turn : SubRun} {v : Json}
    (hturn : turn ∈ turns (iterationJobs name spec runItem context label effective retryCount order)
      s) (h : turn.output = .ok v) : turn.path.isSome = true := by
  obtain ⟨job, hjob, before, rfl⟩ := mem_turns hturn
  obtain ⟨entry, -, rfl⟩ := List.mem_map.mp hjob
  exact iteration_path_of_ok h

theorem branchJobs_path {name : String} {runBranches : List ScopeRunner} {context : Context}
    {label : String} {input : Json} {s : Session} {turn : SubRun}
    (hturn : turn ∈ turns (branchJobs name runBranches context label input) s) :
    turn.path.isSome = true := by
  obtain ⟨job, hjob, before, rfl⟩ := mem_turns hturn
  obtain ⟨index, hindex, rfl⟩ := List.mem_mapIdx.mp hjob
  rfl

theorem iterationJobs_path_iff {name : String} {spec : MapSpec} {runItem : ScopeRunner}
    {context : Context} {label : String} {effective : Json} {retryCount : Nat}
    {inputs : List Json} {s : Session} {k : Nat} {item : Json} {turn : SubRun} :
    let jobs := iterationJobs name spec runItem context label effective retryCount
      (inputs.mapIdx Prod.mk)
    inputs[k]? = some item → (turns jobs s)[k]? = some turn →
      (turn.path = none ↔ ∃ fault, (itemInput name spec context effective retryCount k item
        (sessionBefore jobs s k)).result = .error fault) := by
  intro jobs hitem hturn
  have hjob : jobs[k]? =
      some (iteration name spec runItem context label effective retryCount k item) := by
    simp only [jobs, iterationJobs, List.getElem?_map, List.getElem?_mapIdx, hitem, Option.map_some]
  rw [getElem?_turns, hjob] at hturn
  obtain rfl := Option.some.inj hturn
  exact iteration_path_eq_none_iff

section Attempts
variable {name : String} {context : Context} (label : String) {raw effective : Json}
  {retryCount : Nat} {s : Session}

theorem mapAttempt_of_items {spec : MapSpec} (runItem : ScopeRunner) {items : List Json} :
    let ctx := context.document name retryCount
    spec.io.inputPath.select ⟨raw, ctx⟩ = .ok effective →
      (mapItems name spec effective ctx s).result = .ok items →
      mapAttempt name spec runItem context label raw retryCount s =
        (iterationInputs spec.itemBatcher items effective ctx >>= fun inputs =>
          collect (iterationJobs name spec runItem context label effective retryCount
            (inputs.mapIdx Prod.mk)) (fun paths completed => .map ⟨name, paths⟩ completed) >>=
            concludeMap name spec context raw effective ctx)
          (mapItems name spec effective ctx s).session := by
  intro ctx heffective hitems
  have hread : (mapItems name spec effective ctx).Plain :=
    Process.plain_composes.mapItems effective ctx fun _ => trivial
  rw [mapAttempt_eq]
  show (Process.eval (spec.io.inputPath.select ⟨raw, ctx⟩) >>= _) s = _
  rw [heffective]
  exact hread.bind_of_ok hitems

theorem parallelAttempt_of_input {spec : ParallelSpec} (runBranches : List ScopeRunner)
    {input : Json} :
    let ctx := context.document name retryCount
    spec.io.inputPath.select ⟨raw, ctx⟩ = .ok effective →
      (parametersOr spec.parameters effective ctx s).result = .ok input →
      parallelAttempt name spec runBranches context label raw retryCount s =
        (collect (branchJobs name runBranches context label input)
          (fun paths completed => .parallel ⟨name, paths⟩ completed) >>= fun outputs =>
            finish raw (.arr outputs) spec.resultSelector spec.resultPath spec.io.outputPath ctx)
          (parametersOr spec.parameters effective ctx s).session := by
  intro ctx heffective hinput
  have hrendered : (parametersOr spec.parameters effective ctx).Plain :=
    Process.plain_composes.parametersOr effective ctx fun _ _ => trivial
  show (Process.eval (spec.io.inputPath.select ⟨raw, ctx⟩) >>= _) s = _
  rw [heffective]
  exact hrendered.bind_of_ok hinput

end Attempts

/-- Attempts of Map states whose items resolve, and of Parallel states whose input renders, obey the
law of inner scopes: over the items or batches of them, and over the branches. -/
theorem attempts_aggregate (name : String) (context : Context) (label : String) (raw : Json)
    (retryCount : Nat) (s : Session) :
    let ctx := context.document name retryCount
    (∀ (spec : MapSpec) (runItem : ScopeRunner) (effective : Json) (items : List Json),
      spec.io.inputPath.select ⟨raw, ctx⟩ = .ok effective →
      (mapItems name spec effective ctx s).result = .ok items →
      let attempt := mapAttempt name spec runItem context label raw retryCount s
      let read := (mapItems name spec effective ctx s).session
      let batched := iterationInputs spec.itemBatcher items effective ctx read
      (∀ fault, batched.result = .error fault → attempt.result = .error fault ∧
        ∃ t, spec.itemBatcher.bind (·.batchInput) = some t ∧
          (Process.draw (Template.render ⟨effective, ctx⟩ t) read).result = .error fault) ∧
      ∀ inputs, batched.result = .ok inputs →
        let jobs := iterationJobs name spec runItem context label effective retryCount
          (inputs.mapIdx Prod.mk)
        let runs := turns jobs batched.session
        InputsOf spec.itemBatcher items inputs ∧ runs.length = inputs.length ∧
        (∀ (k : Nat) (item : Json) (turn : SubRun), inputs[k]? = some item → runs[k]? = some turn →
          (turn.path = none ↔ ∃ fault, (itemInput name spec context effective retryCount k item
            (sessionBefore jobs batched.session k)).result = .error fault)) ∧
        Aggregates jobs batched.session (fun paths completed => .map ⟨name, paths⟩ completed)
          (concludeMap name spec context raw effective ctx) attempt ∧
        (spec.resultWriter = none → ∀ outputs,
          mapResult name spec effective ctx context outputs = pure (.arr outputs)) ∧
        ∀ writer, spec.resultWriter = some writer → ∀ outputs after parameters,
          (writerParameters writer effective ctx after).result = .ok parameters →
          ∃ summary, (mapResult name spec effective ctx context outputs after).result =
              .ok summary ∧
            summary.isObject = true ∧
            summary.get? "MapRunArn" = some (.str (context.mapRunArn name)) ∧
            (summary.get? "ResultWriterDetails").isSome = true) ∧
    ∀ (spec : ParallelSpec) (runBranches : List ScopeRunner) (effective input : Json),
      spec.io.inputPath.select ⟨raw, ctx⟩ = .ok effective →
      (parametersOr spec.parameters effective ctx s).result = .ok input →
      let rendered := (parametersOr spec.parameters effective ctx s).session
      let jobs := branchJobs name runBranches context label input
      let runs := turns jobs rendered
      runs.length = runBranches.length ∧ (∀ turn ∈ runs, turn.path.isSome = true) ∧
        Aggregates jobs rendered (fun paths completed => .parallel ⟨name, paths⟩ completed)
          (fun outputs => finish raw (.arr outputs) spec.resultSelector spec.resultPath
            spec.io.outputPath ctx)
          (parallelAttempt name spec runBranches context label raw retryCount s) := by
  intro ctx
  constructor
  · intro spec runItem effective items heffective hitems attempt read batched
    have hattempt := mapAttempt_of_items label runItem heffective hitems
    obtain ⟨hinputs, hfailed⟩ := iterationInputs_reading spec.itemBatcher items effective ctx read
    refine ⟨fun fault hfault => ⟨?_, hfailed fault hfault⟩, fun inputs hok => ?_⟩
    · have hfault : (iterationInputs spec.itemBatcher items effective ctx read).result =
          .error fault := hfault
      simp only [attempt]
      rw [hattempt, Process.bind_of_error hfault]
    · intro jobs runs
      refine ⟨hinputs inputs hok, ?_, fun k item turn => iterationJobs_path_iff, ?_, ?_, ?_⟩
      · rw [length_turns]
        simp only [jobs, iterationJobs, List.length_map, List.length_mapIdx]
      · have hbatched : (iterationInputs spec.itemBatcher items effective ctx).Plain :=
          Process.plain_composes.iterationInputs items effective ctx fun _ _ => trivial
        simp only [attempt]
        rw [hattempt, hbatched.bind_of_ok hok]
        exact collect_aggregates _ _ fun turn hturn v hv => iterationJobs_path_of_ok hturn hv
      · intro hwriter outputs
        rw [mapResult, hwriter]
      · intro writer hwriter outputs after parameters hparameters
        rw [mapResult, hwriter]
        exact (writerSummary_reading name writer effective ctx context after).2 parameters
          hparameters
  · intro spec runBranches effective input heffective hinput rendered jobs runs
    refine ⟨?_, fun turn hturn => branchJobs_path hturn, ?_⟩
    · rw [length_turns]
      simp only [jobs, branchJobs, List.length_mapIdx]
    · rw [parallelAttempt_of_input label runBranches heffective hinput]
      exact collect_aggregates _ _ fun turn hturn v _ => branchJobs_path hturn

/-- Goes on to the second state and fails there, in all iterations but the first. -/
def stumble : ScopeRunner := fun context _ input s =>
  if context.mapItem.map (·.1) = some 0 then ⟨.ok input, ["Go"], [], s⟩
  else ⟨.error ⟨.task "Stumbled" "", "Stop"⟩, ["Go", "Stop"], [], s⟩

/-- Of three batches of five items the second fails, and the third is not run. -/
theorem attempts_aggregate_batches :
    let spec : MapSpec := { plainMap with
      itemBatcher := some { maxItemsPerBatch := some 2, batchInput := none } }
    let context : Context := ⟨"run", "", .null, "StateMachine", none⟩
    let session : Session := ⟨{ config := {} }, .seeded 0⟩
    let items : List Json := [.bool true, .bool true, .bool true, .bool true, .null]
    let attempt := mapAttempt "Each" spec stumble context "" (.arr items) 0 session
    attempt.result = .error (.task "Stumbled" "") ∧
      attempt.log = [.map ⟨"Each", [["Go"], ["Go", "Stop"]]⟩ false] := by
  intro spec context session items attempt
  have heffective : spec.io.inputPath.select ⟨.arr items, context.document "Each" 0⟩ =
      .ok (.arr items) := by
    cbv
  have hitems : mapItems "Each" spec (.arr items) (context.document "Each" 0) session =
      ⟨.ok items, [], session⟩ := by
    cbv
  have hinputs : iterationInputs spec.itemBatcher items (.arr items) (context.document "Each" 0)
      session = ⟨.ok [batch none [.bool true, .bool true], batch none [.bool true, .bool true],
        batch none [.null]], [], session⟩ := by
    cbv
  obtain ⟨-, hbatched⟩ := (attempts_aggregate "Each" context "" (.arr items) 0 session).1 spec
    stumble (.arr items) items heffective (by rw [hitems])
  rw [hitems, hinputs] at hbatched
  obtain ⟨-, -, -, hlaw, -⟩ := hbatched _ rfl
  obtain ⟨paths, hpaths, -, hattempt⟩ := hlaw.failed 1
    ⟨.error (.task "Stumbled" ""), some ["Go", "Stop"], [], session⟩ _ rfl rfl
    (fun before hbefore => by
      obtain rfl := List.mem_singleton.mp hbefore
      exact ⟨_, rfl⟩)
  subst hpaths
  have hattempt : attempt = _ := hattempt
  rw [hattempt]
  exact ⟨rfl, rfl⟩

end Run
end StateCheck
