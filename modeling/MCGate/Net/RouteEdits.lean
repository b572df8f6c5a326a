import MCGate.Net.Api

/-!
# Route requests at the same time

Each request runs on a thread of its own: it reads the config file, edits the document,
validates and writes it, and applies the outcome. Nothing keeps two requests apart, and a
write replaces the whole file, so what another request has written since the read is lost.
-/
namespace MCGate.Api

open Config Yaml Machine Threads

/-! ### Requests as threads -/

inductive Request where
  | create (body : Json)
  | update (index : Nat) (body : Json)
  | delete (index : Nat)

/-- The mutation a request asks for. An index stands for the hosts it has in the live config. -/
def Request.mutation (config : GateConfig) : Request → Except Response Mutation
  | .create body =>
    if (routeHostsFromJson body).isEmpty then .error (.badRequest emptyHost)
    else .ok (.create body.toValue)
  | .update index body =>
    match config.routes[index]? with
    | none => .error .notFound
    | some existing =>
      if (routeHostsFromJson body).isEmpty then .error (.badRequest emptyHost)
      else .ok (.replace (existing.hostPatterns.map HostPattern.raw) body.toValue)
  | .delete index =>
    match config.routes[index]? with
    | none => .error .notFound
    | some existing => .ok (.delete (existing.hostPatterns.map HostPattern.raw))

/-- The handler of a request, with no other request in between. -/
def Request.handle {F : Type} (env : Externals) (format : Format F) (configPath tmpPath : Text)
    (server : Server F) (authorization : Option Text) : Request → Server F × Response
  | .create body =>
    createRouteHandler env format configPath tmpPath server authorization body
  | .update index body =>
    updateRouteHandler env format configPath tmpPath server authorization index body
  | .delete index =>
    deleteRouteHandler env format configPath tmpPath server authorization index

/-- What the requests share. Only the statements read `log`, the mutations in the order in
which they were written to the config file, and `applied`, how many of them the live config
comes from. -/
structure Site (F : Type) where
  files : Files F
  app : AppState
  log : List Mutation
  applied : Nat

/-- Before the first request. -/
def Site.start {F : Type} (text : F) (tmp : Option F) (app : AppState) : Site F :=
  { files := ⟨some text, tmp, []⟩, app, log := [], applied := 0 }

/-- A request, after each of its accesses to what the requests share. `base` is what it has
read from the config file and `seq` the position of its own write. -/
inductive Edit (F : Type) where
  | received (authorization : Option Text) (request : Request)
  | authorized (request : Request)
  | requested (mutation : Mutation)
  | prepared (mutation : Mutation) (base : Option F) (yaml : F)
  | writing (mutation : Mutation) (base : Option F) (write : Write F)
  | written (mutation : Mutation) (seq : Nat) (config : GateConfig)
  | acknowledged (mutation : Mutation)
  | answered (response : Response)

namespace Edit

variable {F : Type}

def fresh : Edit F → Bool
  | .received _ _ => true
  | _ => false

/-- The request after a step of `write_validated`. -/
def afterWrite (site : Site F) (mutation : Mutation) (base : Option F) :
    Files F × Write F → Site F × Edit F
  | (files, .done config) =>
    ({ site with files, log := site.log ++ [mutation] },
      .written mutation (site.log.length + 1) config)
  | (files, .rejected e) => ({ site with files }, .answered (loadFailure e))
  | (files, write) => ({ site with files }, .writing mutation base write)

variable (env : Externals) (format : Format F) (configPath tmpPath : Text)

/-- `apply_config_change` is one step: what `set_config` does before its last assignment
touches nothing that a request reads. -/
def advance (site : Site F) : Edit F → Unit → Option (Site F × Edit F)
  | .received authorization request, _ =>
    if checkAuth site.app authorization then some (site, .authorized request)
    else some (site, .answered .unauthorized)
  | .authorized request, _ =>
    match request.mutation site.app.config with
    | .error response => some (site, .answered response)
    | .ok mutation => some (site, .requested mutation)
  | .requested mutation, _ =>
    match edit format configPath site.files.real mutation with
    | .error response => some (site, .answered response)
    | .ok yaml => some (site, .prepared mutation site.files.real yaml)
  | .prepared mutation base yaml, _ =>
    some (site, .writing mutation base (.called yaml site.app.messages))
  | .writing mutation base write, _ =>
    (Write.advance env format tmpPath site.files write ()).map (afterWrite site mutation base)
  | .written mutation seq config, _ =>
    some ({ site with app := site.app.setConfig config, applied := seq }, .acknowledged mutation)
  | .acknowledged _, _ => none
  | .answered _, _ => none

/-- The mutation of a request that has written the config file. -/
def wrote : Edit F → Option Mutation
  | .written mutation _ _ => some mutation
  | .acknowledged mutation => some mutation
  | _ => none

/-- The request has been answered. -/
def settled : Edit F → Bool
  | .acknowledged _ => true
  | .answered _ => true
  | _ => false

/-! ### A request alone -/

/-- How a request ends. -/
def outcome (mutation : Mutation) : Except Response GateConfig → Edit F
  | .ok _ => .acknowledged mutation
  | .error response => .answered response

private theorem outcome_settled (mutation : Mutation) (result : Except Response GateConfig) :
    (outcome mutation result : Edit F).settled := by
  cases result <;> rfl

/-- A mutation that nothing comes between ends as `mutateRoutesFile` says. -/
theorem run_alone (site : Site F) (mutation : Mutation) :
    ∃ n site',
      run (Threads.step fresh (advance env format configPath tmpPath))
          ⟨site, [.requested mutation]⟩ (List.replicate n (.move 0 ())) =
        some ⟨site', [outcome mutation (mutateRoutesFile env format configPath tmpPath
          ⟨site.app, site.files.real⟩ mutation).2]⟩ ∧
      (mutateRoutesFile env format configPath tmpPath ⟨site.app, site.files.real⟩ mutation).1 =
        ⟨site'.app, site'.files.real⟩ := by
  cases edited : edit format configPath site.files.real mutation with
  | error response =>
    have read : advance env format configPath tmpPath site (.requested mutation) () =
        some (site, .answered response) := by
      simp only [advance, edited]
    simp only [mutateRoutesFile, edited]
    exact ⟨1, site, run_alone_succ read 0, rfl⟩
  | ok yaml =>
    have read : advance env format configPath tmpPath site (.requested mutation) () =
        some (site, .prepared mutation site.files.real yaml) := by
      simp only [advance, edited]
    simp only [mutateRoutesFile, edited]
    -- up to the load the steps are the same for every outcome
    have upToLoad (n : Nat) :
        run (Threads.step fresh (advance env format configPath tmpPath))
            ⟨site, [.requested mutation]⟩ (List.replicate (n + 3) (.move 0 ())) =
          run (Threads.step fresh (advance env format configPath tmpPath))
            ⟨{ site with files.tmp := some yaml },
              [.writing mutation site.files.real (.wroteTmp yaml site.app.messages)]⟩
            (List.replicate n (.move 0 ())) := by
      rw [run_alone_succ read, run_alone_succ rfl, run_alone_succ rfl]
    cases loads : loadConfig env format tmpPath (some yaml) site.app.messages with
    | ok config =>
      have load : advance env format configPath tmpPath { site with files.tmp := some yaml }
          (.writing mutation site.files.real (.wroteTmp yaml site.app.messages)) () =
          some ({ site with files.tmp := some yaml },
            .writing mutation site.files.real (.loaded yaml site.app.messages (.ok config))) := by
        simp only [advance, Write.advance, loads, Option.map_some, afterWrite]
      refine ⟨7, { site with
        files := ⟨some yaml, none, site.files.written ++ [(yaml, site.app.messages)]⟩
        app := site.app.setConfig config
        log := site.log ++ [mutation]
        applied := site.log.length + 1 }, ?_, rfl⟩
      rw [upToLoad 4, run_alone_succ load]
      rfl
    | error e =>
      cases e with
      | panicked =>
        have load : advance env format configPath tmpPath { site with files.tmp := some yaml }
            (.writing mutation site.files.real (.wroteTmp yaml site.app.messages)) () =
            some ({ site with files.tmp := some yaml }, .answered (loadFailure .panicked)) := by
          simp only [advance, Write.advance, loads, Option.map_some, afterWrite]
        refine ⟨4, { site with files.tmp := some yaml }, ?_, rfl⟩
        rw [upToLoad 1, run_alone_succ load]
        rfl
      | failed message =>
        have load : advance env format configPath tmpPath { site with files.tmp := some yaml }
            (.writing mutation site.files.real (.wroteTmp yaml site.app.messages)) () =
            some ({ site with files.tmp := some yaml }, .writing mutation site.files.real
              (.loaded yaml site.app.messages (.error (.failed message)))) := by
          simp only [advance, Write.advance, loads, Option.map_some, afterWrite]
        refine ⟨6, { site with files.tmp := none }, ?_, rfl⟩
        rw [upToLoad 3, run_alone_succ load]
        rfl

/-- A handler leaves the server as `mutateRoutesFile` does for the mutation asked for. -/
theorem handle_server (server : Server F) {authorization : Option Text}
    (allowed : checkAuth server.app authorization) (request : Request) :
    (request.handle env format configPath tmpPath server authorization).1 =
      match request.mutation server.app.config with
      | .error _ => server
      | .ok mutation => (mutateRoutesFile env format configPath tmpPath server mutation).1 := by
  cases request with
  | create body =>
    simp only [Request.handle, createRouteHandler, Request.mutation, allowed, not_true_eq_false,
      if_false]
    split_ifs
    · rfl
    · split <;> simp_all
  | update index body =>
    simp only [Request.handle, updateRouteHandler, Request.mutation, allowed, not_true_eq_false,
      if_false]
    cases server.app.config.routes[index]? with
    | none => rfl
    | some existing =>
      dsimp only
      split_ifs
      · rfl
      · split <;> simp_all
  | delete index =>
    simp only [Request.handle, deleteRouteHandler, Request.mutation, allowed, not_true_eq_false,
      if_false]
    cases server.app.config.routes[index]? with
    | none => rfl
    | some existing =>
      dsimp only
      split <;> simp_all

/-- A request that nothing comes between is answered, and leaves the config and the file as its
handler does. -/
theorem run_received_alone (site : Site F) (authorization : Option Text) (request : Request) :
    ∃ n site' last,
      run (Threads.step fresh (advance env format configPath tmpPath))
          ⟨site, [.received authorization request]⟩ (List.replicate n (.move 0 ())) =
        some ⟨site', [last]⟩ ∧
      last.settled ∧
      (request.handle env format configPath tmpPath ⟨site.app, site.files.real⟩
        authorization).1 = ⟨site'.app, site'.files.real⟩ := by
  by_cases allowed : checkAuth site.app authorization
  · have authorize : advance env format configPath tmpPath site
        (.received authorization request) () = some (site, .authorized request) := by
      simp only [advance, allowed, if_true]
    have handled := handle_server env format configPath tmpPath ⟨site.app, site.files.real⟩
      allowed request
    cases asked : request.mutation site.app.config with
    -- refused in the handler, before the file is read
    | error response =>
      have refuse : advance env format configPath tmpPath site (.authorized request) () =
          some (site, .answered response) := by
        simp only [advance, asked]
      rw [asked] at handled
      exact ⟨2, site, _, (run_alone_succ authorize 1).trans (run_alone_succ refuse 0), rfl,
        handled⟩
    | ok mutation =>
      have ask : advance env format configPath tmpPath site (.authorized request) () =
          some (site, .requested mutation) := by
        simp only [advance, asked]
      rw [asked] at handled
      obtain ⟨n, site', ran, server⟩ := run_alone env format configPath tmpPath site mutation
      exact ⟨n + 2, site', _, (run_alone_succ authorize (n + 1)).trans
        ((run_alone_succ ask n).trans ran), outcome_settled _ _,
        handled.trans server⟩
  · have refuse : advance env format configPath tmpPath site
        (.received authorization request) () = some (site, .answered .unauthorized) := by
      simp only [advance, allowed, Bool.false_eq_true, if_false]
    refine ⟨1, site, _, run_alone_succ refuse 0, rfl, ?_⟩
    cases request <;>
      simp [Request.handle, createRouteHandler, updateRouteHandler, deleteRouteHandler, allowed]

/-! ### What a lost mutation is -/

/-- One mutation of a parsed file, by a request that runs alone. -/
def applyOne (root : Value) (mutation : Mutation) : Option Value :=
  match ConfigDocument.ofRoot configPath root with
  | .error _ => none
  | .ok doc =>
    match mutation.apply doc with
    | some (some doc) => some doc.root
    | _ => none

/-- Mutations one after the other. -/
def applyAll (root : Value) (mutations : List Mutation) : Option Value :=
  mutations.foldlM (applyOne configPath) root

/-- Once every request is answered, the file is what the acknowledged mutations give one
after the other, in some order, and the live config is what it loads to. -/
def NothingLost (root : Value) (pool : Pool (Site F) (Edit F)) : Prop :=
  (∀ thread ∈ pool.threads, thread.settled) →
    ∃ order text final, order.Perm (pool.threads.filterMap wrote) ∧
      applyAll configPath root order = some final ∧
      pool.shared.files.real = some text ∧ format.fromStr text = .ok final ∧
      (order ≠ [] →
        loadConfig env format configPath (some text) pool.shared.app.messages =
          .ok pool.shared.app.config)

/-! ### Requests that do not disturb each other -/

/-- The temporary file is loaded while it holds the request's own text, the config file is
written while it still holds what the request has read, and an outcome is not applied after
one that was written later. -/
def Undisturbed (site : Site F) (thread : Edit F) (_ : Unit) : Prop :=
  match thread with
  | .writing _ _ (.wroteTmp yaml _) => site.files.tmp = some yaml
  | .writing _ base (.removedTmp _ _ (.ok _)) => site.files.real = base
  | .written _ seq _ => site.applied ≤ seq
  | _ => True

instance [DecidableEq F] (site : Site F) (thread : Edit F) (choice : Unit) :
    Decidable (Undisturbed site thread choice) :=
  match thread with
  | .writing _ _ (.wroteTmp yaml _) => inferInstanceAs (Decidable (site.files.tmp = some yaml))
  | .writing _ base (.removedTmp _ _ (.ok _)) =>
    inferInstanceAs (Decidable (site.files.real = base))
  | .written _ seq _ => inferInstanceAs (Decidable (site.applied ≤ seq))
  | .received _ _ | .authorized _ | .requested _ | .prepared _ _ _ | .writing _ _ (.called _ _)
  | .writing _ _ (.loaded _ _ _) | .writing _ _ (.removedTmp _ _ (.error _))
  | .writing _ _ (.done _) | .writing _ _ (.rejected _) | .acknowledged _ | .answered _ =>
    isTrue trivial

/-- A text is what the mutation makes of what was read. -/
def Prepares (mutation : Mutation) (base : Option F) (yaml : F) : Prop :=
  ∃ text root root', base = some text ∧ format.fromStr text = .ok root ∧
    applyOne configPath root mutation = some root' ∧ format.fromStr yaml = .ok root'

/-- The config file is what the log makes of the file at the start. -/
def FileIsLog (root : Value) (site : Site F) : Prop :=
  ∃ text final, site.files.real = some text ∧ format.fromStr text = .ok final ∧
    applyAll configPath root site.log = some final

/-- The config file loads to `config`. -/
def LoadsTo (site : Site F) (config : GateConfig) : Prop :=
  loadConfig env format configPath site.files.real site.app.messages = .ok config

/-- What holds of a request between its steps. -/
def Assertion (site : Site F) : Edit F → Prop
  | .prepared mutation base yaml => Prepares format configPath mutation base yaml
  | .writing mutation base (.called yaml messages)
  | .writing mutation base (.wroteTmp yaml messages) =>
    Prepares format configPath mutation base yaml ∧ messages = site.app.messages
  | .writing mutation base (.loaded yaml messages result)
  | .writing mutation base (.removedTmp yaml messages result) =>
    Prepares format configPath mutation base yaml ∧ messages = site.app.messages ∧
      ∀ config, result = .ok config →
        loadConfig env format tmpPath (some yaml) messages = .ok config
  | .written _ seq config =>
    seq ≤ site.log.length ∧ (seq = site.log.length → LoadsTo env format configPath site config)
  | _ => True

private theorem edit_eq_ok_cases {file : Option F} {mutation : Mutation} {yaml : F}
    (edited : edit format configPath file mutation = .ok yaml) :
    ∃ text root root', file = some text ∧ format.fromStr text = .ok root ∧
      applyOne configPath root mutation = some root' ∧ format.toString root' = .ok yaml := by
  unfold edit at edited
  cases file with
  | none => cases edited
  | some text =>
    cases parsed : format.fromStr text with
    | error message => simp only [ConfigDocument.read, parsed, reduceCtorEq] at edited
    | ok root =>
      simp only [ConfigDocument.read, parsed] at edited
      cases read : ConfigDocument.ofRoot configPath root with
      | error message => simp only [read, reduceCtorEq] at edited
      | ok doc =>
        simp only [read] at edited
        split at edited
        next => cases edited
        next => cases edited
        next doc' applied =>
          split at edited
          next => cases edited
          next shown =>
            cases edited
            refine ⟨text, root, doc'.root, rfl, parsed, ?_, shown⟩
            simp only [applyOne, read, applied]

section Step

variable {env format configPath tmpPath} {site site' : Site F} {thread thread' : Edit F}

/-- What a step does to what the requests share. -/
inductive Effect (site : Site F) (thread : Edit F) : Site F → Edit F → Prop
  /-- at most the temporary file changes -/
  | quiet {files : Files F} {thread' : Edit F} (real : files.real = site.files.real)
      (mark : thread'.wrote = thread.wrote)
      (pending : ∀ mutation seq config, thread ≠ .written mutation seq config) :
      Effect site thread { site with files } thread'
  /-- the config file is written -/
  | writes (files : Files F) (mutation : Mutation) (config : GateConfig)
      (unmarked : thread.wrote = none) :
      Effect site thread { site with files, log := site.log ++ [mutation] }
        (.written mutation (site.log.length + 1) config)
  /-- the outcome is applied -/
  | applies {mutation : Mutation} {seq : Nat} {config : GateConfig}
      (pending : thread = .written mutation seq config) :
      Effect site thread { site with app := site.app.setConfig config, applied := seq }
        (.acknowledged mutation)

theorem advance_effect
    (moved : advance env format configPath tmpPath site thread () = some (site', thread')) :
    Effect site thread site' thread' := by
  cases thread with
  | received authorization request =>
    simp only [advance] at moved
    split at moved <;> cases moved <;> exact .quiet rfl rfl (by simp)
  | authorized request =>
    simp only [advance] at moved
    split at moved <;> cases moved <;> exact .quiet rfl rfl (by simp)
  | requested mutation =>
    simp only [advance] at moved
    split at moved <;> cases moved <;> exact .quiet rfl rfl (by simp)
  | prepared mutation base yaml =>
    cases moved
    exact .quiet rfl rfl (by simp)
  | writing mutation base write =>
    cases write with
    | called yaml messages =>
      cases moved
      exact .quiet rfl rfl (by simp)
    | wroteTmp yaml messages =>
      simp only [advance, Write.advance] at moved
      split at moved <;> cases moved <;> exact .quiet rfl rfl (by simp)
    | loaded yaml messages result =>
      cases moved
      exact .quiet rfl rfl (by simp)
    | removedTmp yaml messages result =>
      cases result with
      | error e =>
        cases moved
        exact .quiet rfl rfl (by simp)
      -- the real file is written in this step alone
      | ok config =>
        cases moved
        exact .writes _ mutation config rfl
    | done config => cases moved
    | rejected e => cases moved
  | written mutation seq config =>
    cases moved
    exact .applies rfl
  | acknowledged mutation => cases moved
  | answered response => cases moved

/-- A step keeps what holds of the other requests. -/
theorem Effect.others {other : Edit F} (effect : Effect site thread site' thread')
    (holds : Assertion env format configPath tmpPath site other) :
    Assertion env format configPath tmpPath site' other := by
  cases other with
  | written mutation seq config =>
    obtain ⟨seen, last⟩ := holds
    cases effect with
    | quiet real _ _ => simpa only [Assertion, LoadsTo, real] using And.intro seen last
    | writes files mutation config unmarked =>
      -- the write comes after all that are in the log
      simp only [Assertion, List.length_append, List.length_singleton]
      exact ⟨by omega, fun same => by omega⟩
    | applies pending => exact ⟨seen, last⟩
  | writing mutation base write =>
    cases effect <;> cases write <;> exact holds
  | prepared mutation base yaml => exact holds
  | _ => trivial

/-- A step of a request keeps what holds of the file and of the request. -/
theorem advance_own {root : Value}
    (lawful : ∀ value text, format.toString value = .ok text → format.fromStr text = .ok value)
    (file : FileIsLog format configPath root site)
    (holds : Assertion env format configPath tmpPath site thread)
    (undisturbed : Undisturbed site thread ())
    (moved : advance env format configPath tmpPath site thread () = some (site', thread')) :
    FileIsLog format configPath root site' ∧
      Assertion env format configPath tmpPath site' thread' := by
  cases thread with
  | received authorization request =>
    simp only [advance] at moved
    split at moved <;> cases moved <;> exact ⟨file, trivial⟩
  | authorized request =>
    simp only [advance] at moved
    split at moved <;> cases moved <;> exact ⟨file, trivial⟩
  | requested mutation =>
    simp only [advance] at moved
    split at moved
    next => cases moved; exact ⟨file, trivial⟩
    next yaml edited =>
      cases moved
      obtain ⟨text, before, after, read, parsed, applied, shown⟩ :=
        edit_eq_ok_cases format configPath edited
      exact ⟨file, text, before, after, read, parsed, applied, lawful after yaml shown⟩
  | prepared mutation base yaml =>
    cases moved
    exact ⟨file, holds, rfl⟩
  | writing mutation base write =>
    cases write with
    | called yaml messages =>
      cases moved
      exact ⟨file, holds⟩
    | wroteTmp yaml messages =>
      obtain ⟨prepares, same⟩ := holds
      have own : site.files.tmp = some yaml := undisturbed
      simp only [advance, Write.advance] at moved
      split at moved
      next => cases moved; exact ⟨file, trivial⟩
      next result _ =>
        cases moved
        refine ⟨file, prepares, same, fun config ok => ?_⟩
        rw [← own]
        exact ok
    | loaded yaml messages result =>
      cases moved
      exact ⟨file, holds⟩
    | removedTmp yaml messages result =>
      cases result with
      | error e =>
        cases moved
        exact ⟨file, trivial⟩
      | ok config =>
        cases moved
        obtain ⟨⟨text, before, after, read, parsed, applied, shown⟩, rfl, loads⟩ := holds
        obtain ⟨text', final, real, parsed', logged⟩ := file
        -- the file still holds what was read, so the edit is one of its present contents
        have unchanged : site.files.real = base := undisturbed
        obtain rfl : text' = text := Option.some.inj ((real.symm.trans unchanged).trans read)
        obtain rfl : final = before := Except.ok.inj (parsed'.symm.trans parsed)
        refine ⟨⟨yaml, after, rfl, shown, ?_⟩, ?_, fun _ => ?_⟩
        · rw [applyAll, List.foldlM_append]
          exact Option.bind_eq_some_iff.mpr ⟨final, logged, by simp [applied]⟩
        · rw [List.length_append]
          rfl
        · exact loads config rfl
    | done config => cases moved
    | rejected e => cases moved
  | written mutation seq config =>
    cases moved
    exact ⟨file, trivial⟩
  | acknowledged mutation => cases moved
  | answered response => cases moved

/-! ### Whole runs -/

/-- The live config is the last one that was written, or that one is still to be applied. -/
def LiveIsLast (env : Externals) (format : Format F) (configPath : Text)
    (pool : Pool (Site F) (Edit F)) : Prop :=
  (pool.shared.applied = pool.shared.log.length ∧
      (pool.shared.log ≠ [] → LoadsTo env format configPath pool.shared pool.shared.app.config)) ∨
    ∃ mutation config, .written mutation pool.shared.log.length config ∈ pool.threads

structure Consistent (env : Externals) (format : Format F) (configPath tmpPath : Text)
    (root : Value) (pool : Pool (Site F) (Edit F)) : Prop where
  each : Holds (FileIsLog format configPath root) (Assertion env format configPath tmpPath) pool
  logged : pool.shared.log.Perm (pool.threads.filterMap wrote)
  live : LiveIsLast env format configPath pool

variable {threads : List (Edit F)} {i : Nat}

theorem Effect.logged (effect : Effect site thread site' thread')
    (at_i : threads[i]? = some thread) (logged : site.log.Perm (threads.filterMap wrote)) :
    site'.log.Perm ((threads.set i thread').filterMap wrote) := by
  cases effect with
  | quiet _ mark _ =>
    rw [filterMap_set_of_eq at_i mark]
    exact logged
  | writes files mutation config unmarked =>
    refine List.Perm.trans ?_ (filterMap_set_of_new at_i unmarked rfl).symm
    exact (List.perm_append_singleton _ _).trans (logged.cons _)
  | applies pending =>
    rw [filterMap_set_of_eq at_i (by rw [pending]; rfl)]
    exact logged

theorem Effect.live (effect : Effect site thread site' thread')
    (at_i : threads[i]? = some thread)
    (holds : Assertion env format configPath tmpPath site thread)
    (undisturbed : Undisturbed site thread ())
    (live : LiveIsLast env format configPath ⟨site, threads⟩) :
    LiveIsLast env format configPath ⟨site', threads.set i thread'⟩ := by
  cases effect with
  | quiet real mark pending =>
    rcases live with ⟨all, loads⟩ | ⟨mutation, config, member⟩
    · left
      simpa only [LoadsTo, real] using And.intro all loads
    · right
      refine ⟨mutation, config, mem_set_of_ne at_i member ?_⟩
      exact (pending mutation _ config).symm
  | writes files mutation config unmarked =>
    right
    obtain ⟨inRange, -⟩ := List.getElem?_eq_some_iff.mp at_i
    refine ⟨mutation, config, ?_⟩
    rw [List.length_append]
    exact List.mem_set inRange _
  | applies pending =>
    subst pending
    obtain ⟨seen, last⟩ := holds
    have inOrder : site.applied ≤ _ := undisturbed
    rcases Nat.eq_or_lt_of_le seen with same | earlier
    · exact .inl ⟨same, fun _ => last same⟩
    · -- a later write is still to be applied, and it is not this request's
      rcases live with ⟨all, -⟩ | ⟨mutation, config, member⟩
      · exact absurd all (by simp only; omega)
      · right
        refine ⟨mutation, config, mem_set_of_ne at_i member fun same => ?_⟩
        simp only [Edit.written.injEq] at same
        omega

private theorem step_consistent {root : Value} {pool next : Pool (Site F) (Edit F)}
    {event : Event (Edit F) Unit}
    (lawful : ∀ value text, format.toString value = .ok text → format.fromStr text = .ok value)
    (consistent : Consistent env format configPath tmpPath root pool)
    (undisturbed : MoveCond Undisturbed pool event)
    (stepped : Threads.step fresh (advance env format configPath tmpPath) pool event = some next) :
    Consistent env format configPath tmpPath root next := by
  obtain ⟨each, logged, live⟩ := consistent
  have each' : Holds (FileIsLog format configPath root)
      (Assertion env format configPath tmpPath) next := by
    have allowed : ∀ i choice thread, event = .move i choice →
        pool.threads[i]? = some thread → Undisturbed pool.shared thread choice := by
      rintro i choice thread rfl at_i
      exact undisturbed thread at_i
    -- each request keeps what holds of itself, and the step of another one leaves it alone
    refine step_stable ?_ ?_ ?_ each allowed stepped
    · intro site thread _ starts
      cases thread <;> trivial
    · intro site thread choice site' thread' file holds undisturbed moved
      exact advance_own lawful file holds undisturbed moved
    · intro site thread choice site' thread' other _ _ _ moved holds
      exact (advance_effect moved).others holds
  cases event with
  | spawn thread =>
    obtain ⟨starts, rfl⟩ := step_spawn_eq_some.mp stepped
    refine ⟨each', ?_, ?_⟩
    · have unmarked : thread.wrote = none := by
        cases thread <;> first | rfl | cases starts
      rw [List.filterMap_append, List.filterMap_cons_none unmarked, List.filterMap_nil,
        List.append_nil]
      exact logged
    · rcases live with now | ⟨mutation, config, member⟩
      · exact .inl now
      · exact .inr ⟨mutation, config, List.mem_append_left _ member⟩
  | move i choice =>
    obtain ⟨thread, site', thread', at_i, moved, rfl⟩ := step_move_eq_some.mp stepped
    have effect := advance_effect moved
    have mine := each.2 thread (List.mem_of_getElem? at_i)
    exact ⟨each', effect.logged at_i logged, effect.live at_i mine (undisturbed thread at_i) live⟩

private theorem Consistent.nothingLost {root : Value} {pool : Pool (Site F) (Edit F)}
    (consistent : Consistent env format configPath tmpPath root pool) :
    NothingLost env format configPath root pool := by
  intro settled
  obtain ⟨text, final, real, parsed, applied⟩ := consistent.each.1
  refine ⟨pool.shared.log, text, final, consistent.logged, applied, real, parsed, ?_⟩
  intro some_edit
  rcases consistent.live with ⟨-, loads⟩ | ⟨mutation, config, member⟩
  · rw [← real]
    exact loads some_edit
  · exact absurd (settled _ member) (by simp [Edit.settled])

end Step

/-- In every interleaving of requests that do not disturb each other, no acknowledged
mutation is lost. -/
theorem nothingLost_of_undisturbed
    (lawful : ∀ value text, format.toString value = .ok text → format.fromStr text = .ok value)
    (text : F) (tmp : Option F) (app : AppState) {root : Value}
    (parsed : format.fromStr text = .ok root) (events : List (Event (Edit F) Unit))
    (undisturbed : Guarded (Threads.step fresh (advance env format configPath tmpPath))
      (MoveCond Undisturbed) ⟨Site.start text tmp app, []⟩ events) :
    Always (Threads.step fresh (advance env format configPath tmpPath))
      (NothingLost env format configPath root) ⟨Site.start text tmp app, []⟩ events := by
  have consistent : Always (Threads.step fresh (advance env format configPath tmpPath))
      (Consistent env format configPath tmpPath root) ⟨Site.start text tmp app, []⟩ events := by
    refine always_of_guarded (fun pool event next consistent undisturbed stepped =>
      step_consistent lawful consistent undisturbed stepped) ?_ undisturbed
    refine ⟨⟨⟨text, root, rfl, parsed, rfl⟩, fun thread member => ?_⟩, List.Perm.refl _, ?_⟩
    · cases member
    · exact .inl ⟨rfl, fun some_edit => absurd rfl some_edit⟩
  exact consistent.imp fun pool => Consistent.nothingLost

/-- Files that hold the host and the backend of each route and nothing else. -/
def plainEntry (route : Text × Text) : Value :=
  .mapping [(.string "host".toList, .string route.1), (.string "backend".toList, .string route.2)]

def plainRoute? : Value → Option (Text × Text)
  | .mapping [(.string host, .string h), (.string backend, .string b)] =>
    if host = "host".toList ∧ backend = "backend".toList then some (h, b) else none
  | _ => none

def plainRoutes? : List Value → Option (List (Text × Text))
  | [] => some []
  | entry :: rest => do return (← plainRoute? entry) :: (← plainRoutes? rest)

def plainDocument? : Value → Option (List (Text × Text))
  | .mapping [(.string key, .sequence entries)] =>
    if key = "routes".toList then plainRoutes? entries else none
  | _ => none

def plainFormat : Format (List (Text × Text)) where
  fromStr routes := .ok (document (routes.map plainEntry))
  toString value :=
    match plainDocument? value with
    | some routes => .ok routes
    | none => .error "not plain".toList

private theorem plainRoute?_eq_some {value : Value} {route : Text × Text}
    (plain : plainRoute? value = some route) : plainEntry route = value := by
  unfold plainRoute? at plain
  split at plain
  next =>
    obtain ⟨⟨rfl, rfl⟩, same⟩ := Option.ite_none_right_eq_some.mp plain
    cases same
    rfl
  next => cases plain

private theorem plainRoutes?_eq_some {entries : List Value} {routes : List (Text × Text)}
    (plain : plainRoutes? entries = some routes) : routes.map plainEntry = entries := by
  induction entries generalizing routes with
  | nil =>
    cases plain
    rfl
  | cons entry rest ih =>
    obtain ⟨route, first, plain⟩ := Option.bind_eq_some_iff.mp plain
    obtain ⟨others, later, same⟩ := Option.bind_eq_some_iff.mp plain
    cases same
    rw [List.map_cons, plainRoute?_eq_some first, ih later]

private theorem plainFormat_lawful (value : Value) (text : List (Text × Text))
    (shown : plainFormat.toString value = .ok text) : plainFormat.fromStr text = .ok value := by
  simp only [plainFormat] at shown
  split at shown
  next routes plain =>
    cases shown
    unfold plainDocument? at plain
    split at plain
    next =>
      obtain ⟨rfl, plain⟩ := Option.ite_none_right_eq_some.mp plain
      rw [← plainRoutes?_eq_some plain]
      rfl
    next => cases plain
  next => cases shown

def post (host backend : String) : Request :=
  .create (.object
    [("host".toList, .string host.toList), ("backend".toList, .string backend.toList)])

/-- The server with an empty list of routes. -/
def emptySite : Site (List (Text × Text)) := Site.start [] none (AppState.new {} silentMessages)

def twoPosts : List (Event (Edit (List (Text × Text))) Unit) :=
  [.spawn (.received none (post "lobby.example.com" "10.0.0.1")),
    .spawn (.received none (post "games.example.com" "10.0.0.2"))]

def moves (order : List Nat) : List (Event (Edit (List (Text × Text))) Unit) :=
  order.map fun i => .move i ()

/-- Two requests overlap, and the second reads the file after the first has written it. -/
theorem nothingLost_apart :
    (run (Threads.step fresh (advance asciiExternals plainFormat [] [])) ⟨emptySite, []⟩
        (twoPosts ++ moves [0, 1, 0, 1, 0, 0, 0, 0, 0, 0, 1, 1, 1, 0, 1, 1, 1, 1])).isSome ∧
      Always (Threads.step fresh (advance asciiExternals plainFormat [] []))
        (NothingLost asciiExternals plainFormat [] (document [])) ⟨emptySite, []⟩
        (twoPosts ++ moves [0, 1, 0, 1, 0, 0, 0, 0, 0, 0, 1, 1, 1, 0, 1, 1, 1, 1]) := by
  refine ⟨by decide, ?_⟩
  exact nothingLost_of_undisturbed asciiExternals plainFormat [] [] plainFormat_lawful [] none _ rfl
    _ (by decide)

/-- The hosts a mutation is about. -/
def hosts : Mutation → List Text
  | .create route => routeHosts route
  | .replace hosts newRoute => hosts ++ routeHosts newRoute
  | .delete hosts => hosts

/-- Two requests read the file before either has written it, and the route of the first is
in neither the file nor the live config at the end. -/
theorem first_post_lost :
    ¬ ∀ (F : Type) (env : Externals) (format : Format F) (configPath tmpPath : Text) (text : F)
        (tmp : Option F) (app : AppState) (root : Value) (events : List (Event (Edit F) Unit))
        (last : Pool (Site F) (Edit F)) (one two : Mutation),
      (∀ value text, format.toString value = .ok text → format.fromStr text = .ok value) →
      format.fromStr text = .ok root →
      run (Threads.step fresh (advance env format configPath tmpPath))
        ⟨Site.start text tmp app, []⟩ events = some last →
      last.threads = [.acknowledged one, .acknowledged two] →
      (∀ host ∈ hosts one, host ∉ hosts two) →
      NothingLost env format configPath root last := by
  intro never
  obtain ⟨order, text, final, perm, applied, real, parsed, -⟩ :=
    never _ asciiExternals plainFormat [] [] [] none (AppState.new {} silentMessages) (document [])
      (twoPosts ++ moves [0, 0, 0, 1, 1, 1, 0, 0, 0, 0, 0, 0, 1, 1, 1, 1, 1, 1]) _ _ _
      plainFormat_lawful rfl rfl rfl (by decide) (by decide)
  obtain rfl := Option.some.inj real
  obtain rfl := Except.ok.inj parsed
  -- in either order the two mutations give two routes, and the file has one
  obtain ⟨a, b, rfl⟩ := List.length_eq_two.mp perm.length_eq
  have first := perm.subset List.mem_cons_self
  have second := perm.subset (List.mem_cons_of_mem a List.mem_cons_self)
  have count := congrArg (Option.map fun root => (rawRoutes (configSection root)).length) applied
  rcases List.mem_pair.mp first with rfl | rfl <;> rcases List.mem_pair.mp second with rfl | rfl <;>
    exact absurd count (by decide)

end Edit

end MCGate.Api
