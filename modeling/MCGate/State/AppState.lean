import MCGate.Config.Loader
import MCGate.Lib.Threads

/-!
# The live configuration

`AppState` holds the live config and, for each route index, the runtime that counts the
connections of that route. `set_config` reads the old routes, reads the old runtimes,
publishes the new runtimes and writes the new config, each under a lock of its own, and a
connection takes a snapshot of the config first and its runtime after the handshake. The
threads of the pool are such calls and connections, in any interleaving.
-/
namespace MCGate

open Config Machine Threads

/-- `Arc<RouteRuntime>`. Only the statements read the routes: the one that it was made for, which
it keeps wherever it is carried over to, and the one it was last selected for. -/
structure Assigned where
  arc : Nat
  madeFor : Config.Route
  route : Config.Route

/-- `HashMap<usize, Arc<RouteRuntime>>` -/
abbrev Runtimes := List (Nat × Assigned)

def Runtimes.get (runtimes : Runtimes) (index : Nat) : Option Assigned :=
  (runtimes.find? fun entry => entry.1 = index).map Prod.snd

/-- The new map of `set_config` from `index` on: the runtime of the first old route equal to
a new one is carried over, and every other route gets a new allocation. -/
def newRuntimes (oldRoutes : List Config.Route) (oldRuntimes : Runtimes) :
    Nat → Nat → List Config.Route → Runtimes × Nat
  | _, nextArc, [] => ([], nextArc)
  | index, nextArc, route :: rest =>
    match (oldRoutes.findIdx? fun r => r.eq route).bind oldRuntimes.get with
    | some carried =>
      let (others, nextArc) := newRuntimes oldRoutes oldRuntimes (index + 1) nextArc rest
      ((index, ⟨carried.arc, carried.madeFor, route⟩) :: others, nextArc)
    | none =>
      let (others, nextArc') := newRuntimes oldRoutes oldRuntimes (index + 1) (nextArc + 1) rest
      ((index, ⟨nextArc, route, route⟩) :: others, nextArc')

/-- `published` is the route list that the runtimes were last selected for; only the
statements read it. -/
structure AppState where
  config : GateConfig
  messages : GateMessages
  routeRuntimes : Runtimes
  published : List Config.Route
  nextArc : Nat

namespace AppState

/-- `AppState::new`: a runtime of its own for every route. -/
def new (config : GateConfig) (messages : GateMessages) : AppState :=
  let (routeRuntimes, nextArc) := newRuntimes [] [] 0 0 config.routes
  { config, messages, routeRuntimes, published := config.routes, nextArc }

def routeRuntime (app : AppState) (index : Nat) : Option Assigned := app.routeRuntimes.get index

/-- The publishing section of `set_config`. -/
def publish (app : AppState) (oldRoutes : List Config.Route) (oldRuntimes : Runtimes)
    (newConfig : GateConfig) : AppState :=
  let (routeRuntimes, nextArc) := newRuntimes oldRoutes oldRuntimes 0 app.nextArc newConfig.routes
  { app with routeRuntimes, published := newConfig.routes, nextArc }

/-- `set_config` with nothing in between. -/
def setConfig (app : AppState) (newConfig : GateConfig) : AppState :=
  { app.publish app.config.routes app.routeRuntimes newConfig with config := newConfig }

end AppState

/-- The first route of the list that matches, with its index; the outer `none` is a panic. -/
def matchRoute (toLowercase : Text → Text) (hostname : Text) :
    Nat → List Config.Route → Option (Option (Nat × Config.Route × List Text))
  | _, [] => some none
  | index, route :: rest => do
    match ← route.matchHost toLowercase hostname with
    | some captures => return some (index, route, captures)
    | none => matchRoute toLowercase hostname (index + 1) rest

/-- A thread: a call of `set_config`, or a connection. -/
inductive Task where
  /-- `set_config` is called -/
  | reload (newConfig : GateConfig)
  /-- it has read the routes of the old config -/
  | readRoutes (newConfig : GateConfig) (oldRoutes : List Config.Route)
  /-- it has read the old runtimes too -/
  | readRuntimes (newConfig : GateConfig) (oldRoutes : List Config.Route) (oldRuntimes : Runtimes)
  /-- it has published the new runtimes -/
  | published (newConfig : GateConfig)
  | returned
  /-- `handle_connection` is called -/
  | accepted
  /-- it has its snapshot and waits for the handshake -/
  | waiting (snapshot : GateConfig)
  /-- it uses the runtime found at the index of its route; `none` is a runtime of its own,
  `unwrap_or_default` -/
  | routed (index : Nat) (route : Config.Route) (captures : List Text) (runtime : Option Assigned)
  | closed

namespace Task

/-- A call of `set_config` that has not returned. -/
def reloading : Task → Bool
  | .reload _ | .readRoutes _ _ | .readRuntimes _ _ _ | .published _ => true
  | _ => false

def fresh : Task → Bool
  | .reload _ | .accepted => true
  | _ => false

/-- One critical section. `handshake` is what a waiting connection's client sends, `none`
when it sends nothing that parses in time. -/
def advance (toLowercase : Text → Text) (app : AppState) :
    Task → Option Text → Option (AppState × Task)
  | .reload newConfig, _ => some (app, .readRoutes newConfig app.config.routes)
  | .readRoutes newConfig oldRoutes, _ =>
    some (app, .readRuntimes newConfig oldRoutes app.routeRuntimes)
  | .readRuntimes newConfig oldRoutes oldRuntimes, _ =>
    some (app.publish oldRoutes oldRuntimes newConfig, .published newConfig)
  | .published newConfig, _ => some ({ app with config := newConfig }, .returned)
  | .accepted, _ => some (app, .waiting app.config)
  | .waiting _, none => some (app, .closed)
  | .waiting snapshot, some hostname =>
    match matchRoute toLowercase hostname 0 snapshot.routes with
    | some (some (index, route, captures)) =>
      some (app, .routed index route captures (app.routeRuntime index))
    | _ => some (app, .closed)
  | .returned, _ => none
  | .routed _ _ _ _, _ => none
  | .closed, _ => none

end Task

abbrev Gate := Pool AppState Task

def Gate.step (toLowercase : Text → Text) : Gate → Event Task (Option Text) → Option Gate :=
  Threads.step Task.fresh (Task.advance toLowercase)

def Gate.new (config : GateConfig) (messages : GateMessages) : Gate :=
  ⟨AppState.new config messages, []⟩

/-! ### What the map holds -/

/-- Entry `k` of a new map was selected for the route at `k`, counted from `index`. -/
theorem newRuntimes_get (oldRoutes : List Config.Route) (oldRuntimes : Runtimes)
    (index nextArc : Nat) (routes : List Config.Route) (k : Nat) :
    ((newRuntimes oldRoutes oldRuntimes index nextArc routes).1.get k).map Assigned.route =
      if k < index then none else routes[k - index]? := by
  induction routes generalizing index nextArc with
  | nil => simp [newRuntimes, Runtimes.get]
  | cons route rest ih =>
    -- whichever runtime is chosen, the entry at `index` is for `route`
    have entry : ∀ (arc : Nat) (madeFor : Config.Route) (others : Runtimes),
        (others.get k).map Assigned.route =
          (if k < index + 1 then none else rest[k - (index + 1)]?) →
        (Runtimes.get ((index, ⟨arc, madeFor, route⟩) :: others) k).map Assigned.route =
          if k < index then none else (route :: rest)[k - index]? := by
      intro arc madeFor others later
      rcases Nat.lt_trichotomy k index with below | rfl | above
      · have apart : index ≠ k := by omega
        rw [if_pos (by omega)] at later
        simpa [Runtimes.get, apart, below] using later
      · simp [Runtimes.get]
      · have apart : index ≠ k := by omega
        have shift : k - index = k - (index + 1) + 1 := by omega
        rw [if_neg (by omega)] at later
        rw [if_neg (by omega), shift, List.getElem?_cons_succ, ← later]
        simp [Runtimes.get, apart]
    unfold newRuntimes
    split
    next carried found => exact entry _ _ _ (ih (index + 1) nextArc)
    next fresh => exact entry _ _ _ (ih (index + 1) (nextArc + 1))

/-- The map in force was selected for the list published last. -/
def AppState.Published (app : AppState) : Prop :=
  ∀ i, (app.routeRuntime i).map Assigned.route = app.published[i]?

theorem AppState.new_published (config : GateConfig) (messages : GateMessages) :
    (AppState.new config messages).Published := by
  intro i
  have selected := newRuntimes_get [] [] 0 0 config.routes i
  rwa [if_neg (Nat.not_lt_zero i), Nat.sub_zero] at selected

theorem AppState.publish_published (app : AppState) (oldRoutes : List Config.Route)
    (oldRuntimes : Runtimes) (newConfig : GateConfig) :
    (app.publish oldRoutes oldRuntimes newConfig).Published := by
  intro i
  have selected := newRuntimes_get oldRoutes oldRuntimes 0 app.nextArc newConfig.routes i
  rwa [if_neg (Nat.not_lt_zero i), Nat.sub_zero] at selected

/-- The map has exactly the keys of `routes`, and each runtime was selected for a route
equal to the one at its index. -/
def AppState.SelectedFor (app : AppState) (routes : List Config.Route) : Prop :=
  (∀ i, (app.routeRuntime i).isSome ↔ i < routes.length) ∧
    ∀ i assigned route, app.routeRuntime i = some assigned → routes[i]? = some route →
      assigned.route.eq route

private theorem AppState.selectedFor_iff {app : AppState} (known : app.Published)
    (routes : List Config.Route) :
    app.SelectedFor routes ↔ List.Forall₂ (fun one two => one.eq two) app.published routes := by
  have keys : ∀ i, (app.routeRuntime i).isSome ↔ i < app.published.length := by
    intro i
    rw [← Option.isSome_map (f := Assigned.route), known i]
    simp
  rw [List.forall₂_iff_get]
  constructor
  · rintro ⟨sameKeys, equal⟩
    have sameLength : app.published.length = routes.length := by
      have both : ∀ i, i < app.published.length ↔ i < routes.length := fun i =>
        (keys i).symm.trans (sameKeys i)
      have one := both app.published.length
      have two := both routes.length
      omega
    refine ⟨sameLength, fun i inPublished inRoutes => ?_⟩
    obtain ⟨assigned, found⟩ := Option.isSome_iff_exists.mp ((keys i).mpr inPublished)
    have route := known i
    rw [found, List.getElem?_eq_getElem inPublished] at route
    have := equal i assigned (routes.get ⟨i, inRoutes⟩) found (List.getElem?_eq_getElem inRoutes)
    rwa [Option.some.inj route] at this
  · rintro ⟨sameLength, equal⟩
    refine ⟨fun i => sameLength ▸ keys i, fun i assigned route found at_i => ?_⟩
    have selected := known i
    rw [found] at selected
    obtain ⟨inPublished, same⟩ := List.getElem?_eq_some_iff.mp selected.symm
    obtain ⟨inRoutes, here⟩ := List.getElem?_eq_some_iff.mp at_i
    have := equal i inPublished inRoutes
    rwa [List.get_eq_getElem, List.get_eq_getElem, same, here] at this

/-- No step changes the runtimes without publishing. -/
theorem Task.advance_published {toLowercase : Text → Text} {app app' : AppState}
    {task task' : Task} {handshake : Option Text} (known : app.Published)
    (moved : task.advance toLowercase app handshake = some (app', task')) : app'.Published := by
  unfold Task.advance at moved
  split at moved
  case h_3 _ newConfig oldRoutes oldRuntimes =>
    cases moved
    exact app.publish_published oldRoutes oldRuntimes newConfig
  case h_7 => split at moved <;> cases moved <;> exact known
  all_goals cases moved
  all_goals exact known

private theorem Gate.step_published {toLowercase : Text → Text} {gate next : Gate}
    {event : Event Task (Option Text)} (known : gate.shared.Published)
    (stepped : Gate.step toLowercase gate event = some next) : next.shared.Published := by
  cases event with
  | spawn task =>
    obtain ⟨-, rfl⟩ := step_spawn_eq_some.mp stepped
    exact known
  | move i handshake =>
    obtain ⟨task, app, task', -, moved, rfl⟩ := step_move_eq_some.mp stepped
    exact Task.advance_published known moved

/-! ### Reloads that overlap -/

namespace Gate

/-- No call of `set_config` is in progress. -/
def Settled (gate : Gate) : Prop := ∀ task ∈ gate.threads, ¬ task.reloading

instance (gate : Gate) : Decidable gate.Settled :=
  inferInstanceAs (Decidable (∀ task ∈ gate.threads, ¬ task.reloading))

/-- Once all calls have returned, the runtimes fit the config. -/
def Aligned (gate : Gate) : Prop :=
  gate.Settled → gate.shared.SelectedFor gate.shared.config.routes

/-- The call that writes its config last, with no other in progress, finds the runtimes
last published for a route list equal to its own. -/
def LastWriterPublished (gate : Gate) : Event Task (Option Text) → Prop
  | .spawn _ => True
  | .move i _ => ∀ newConfig, gate.threads[i]? = some (.published newConfig) →
      Settled ⟨gate.shared, gate.threads.set i .returned⟩ →
      List.Forall₂ (fun one two => one.eq two) gate.shared.published newConfig.routes

instance (gate : Gate) (event : Event Task (Option Text)) :
    Decidable (gate.LastWriterPublished event) :=
  match event with
  | .spawn _ => isTrue trivial
  | .move i _ =>
    match here : gate.threads[i]? with
    | some (.published newConfig) =>
      decidable_of_iff
        (Settled ⟨gate.shared, gate.threads.set i .returned⟩ →
          List.Forall₂ (fun one two => one.eq two) gate.shared.published newConfig.routes)
        (by simp [LastWriterPublished, here])
    | some (.reload _) | some (.readRoutes _ _) | some (.readRuntimes _ _ _) | some .returned
    | some .accepted | some (.waiting _) | some (.routed _ _ _ _) | some .closed | none =>
      isTrue (by simp [LastWriterPublished, here])

private theorem not_settled_set {app : AppState} {threads : List Task} {i : Nat} {task task' : Task}
    (at_i : threads[i]? = some task) (busy : task'.reloading) :
    ¬ Settled ⟨app, threads.set i task'⟩ := by
  intro settled
  obtain ⟨inRange, -⟩ := List.getElem?_eq_some_iff.mp at_i
  exact settled task' (List.mem_set inRange task') busy

/-- Whether the runtimes fit after a step: only the last section of a call that leaves no
other in progress is to be looked at. -/
theorem aligned_step_iff {toLowercase : Text → Text} {gate next : Gate}
    {event : Event Task (Option Text)} (known : gate.shared.Published) (aligned : gate.Aligned)
    (stepped : Gate.step toLowercase gate event = some next) :
    next.Aligned ↔ gate.LastWriterPublished event := by
  cases event with
  | spawn task =>
    obtain ⟨-, rfl⟩ := step_spawn_eq_some.mp stepped
    refine iff_of_true (fun settled => aligned fun other member => ?_) trivial
    exact settled other (List.mem_append_left _ member)
  | move i handshake =>
    obtain ⟨task, app, task', at_i, moved, rfl⟩ := step_move_eq_some.mp stepped
    -- a call that goes on is still in progress
    have busy (still : task'.reloading) (early : ∀ newConfig, task ≠ .published newConfig) :
        Aligned ⟨app, gate.threads.set i task'⟩ ↔
          gate.LastWriterPublished (.move i handshake) := by
      refine iff_of_true (fun settled => absurd settled (not_settled_set at_i still)) ?_
      intro newConfig here
      rw [at_i] at here
      exact absurd (Option.some.inj here) (early newConfig)
    -- a connection leaves calls and runtimes alone
    have apart (before : ¬ task.reloading) (after : ¬ task'.reloading)
        (same : app = gate.shared) :
        Aligned ⟨app, gate.threads.set i task'⟩ ↔
          gate.LastWriterPublished (.move i handshake) := by
      subst same
      refine iff_of_true (fun settled => aligned ?_) ?_
      · exact (forall_mem_set_iff at_i before after).mp settled
      · intro newConfig here
        rw [at_i] at here
        rw [Option.some.inj here] at before
        exact absurd rfl before
    unfold Task.advance at moved
    split at moved
    case h_4 _ newConfig =>
      cases moved
      have written : AppState.Published { gate.shared with config := newConfig } := known
      have fits := AppState.selectedFor_iff written newConfig.routes
      constructor
      · intro aligned' other here settled
        rw [at_i] at here
        cases here
        exact fits.mp (aligned' settled)
      · intro last settled
        exact fits.mpr (last newConfig at_i settled)
    case h_7 =>
      split at moved <;> cases moved <;> exact apart Bool.false_ne_true Bool.false_ne_true rfl
    all_goals cases moved
    case h_1.refl | h_2.refl | h_3.refl => exact busy rfl (by simp)
    all_goals exact apart Bool.false_ne_true Bool.false_ne_true rfl

/-- The runtimes fit the config in every state with no call in progress, exactly in the
runs whose last writers each find their own route list published. -/
theorem aligned_iff_lastWriterPublished (toLowercase : Text → Text) (config : GateConfig)
    (messages : GateMessages) (events : List (Event Task (Option Text))) (last : Gate)
    (ran : run (Gate.step toLowercase) (Gate.new config messages) events = some last) :
    Always (Gate.step toLowercase) Aligned (Gate.new config messages) events ↔
      Guarded (Gate.step toLowercase) LastWriterPublished (Gate.new config messages) events := by
  have known := AppState.new_published config messages
  refine always_iff_guarded (fun _ _ _ => step_published)
    (fun _ _ _ => aligned_step_iff) known ?_ ran
  intro _
  refine (AppState.selectedFor_iff known config.routes).mpr ?_
  exact List.forall₂_same.mpr fun route _ => Config.Route.eq_iff.mpr rfl

/-- A route with one host, one backend and every other setting at its default. -/
def plainRoute (host backend : String) : Config.Route :=
  { hostPatterns := [HostPattern.new (List.map Char.toLower) host.toList]
    backendTemplates := [backend.toList]
    strategy := .sequential
    cachePingTtlMillis := 10000
    fallback := none
    modifyVirtualHost := false
    proxyProtocol := false
    priority := 0
    reconnect := {}
    kickMessage := []
    voicechatTemplates := []
    metrics := none }

def lobby : GateConfig := { routes := [plainRoute "lobby.example.com" "10.0.0.1"] }

def lobbyAndGames : GateConfig :=
  { routes :=
      [plainRoute "lobby.example.com" "10.0.0.1", plainRoute "games.example.com" "10.0.0.2"] }

def gamesAndLobby : GateConfig :=
  { routes :=
      [plainRoute "games.example.com" "10.0.0.2", plainRoute "lobby.example.com" "10.0.0.1"] }

def games : GateConfig := { routes := [plainRoute "games.example.com" "10.0.0.2"] }

/-- Two reloads whose sections alternate, the second publishing and writing last. -/
def orderedReloads : List (Event Task (Option Text)) :=
  [.spawn (.reload games), .spawn (.reload lobbyAndGames), .move 0 none, .move 1 none,
    .move 0 none, .move 1 none, .move 0 none, .move 1 none, .move 0 none, .move 1 none]

theorem aligned_after_orderedReloads :
    Always (Gate.step (List.map Char.toLower)) Aligned (Gate.new lobby {}) orderedReloads := by
  refine (aligned_iff_lastWriterPublished _ lobby {} orderedReloads _ rfl).mpr ?_
  decide

/-- The first reload publishes first and writes its config last: the runtimes of the other
one's routes stay. -/
theorem overlapping_reloads_misalign :
    ¬ ∀ (config : GateConfig) (messages : GateMessages)
        (events : List (Event Task (Option Text))) (last : Gate),
      run (Gate.step (List.map Char.toLower)) (Gate.new config messages) events = some last →
      last.Aligned := by
  intro always
  have aligned := always lobby {}
    [.spawn (.reload lobby), .spawn (.reload games), .move 0 none, .move 0 none, .move 0 none,
      .move 1 none, .move 1 none, .move 1 none, .move 1 none, .move 0 none] _ rfl
  have settled := aligned (by decide)
  exact absurd (settled.2 0 _ _ rfl rfl) (by decide)

/-! ### Reloads while a handshake is pending -/

/-- The connection, if it has a route, uses a runtime that was made for a route equal to it. -/
def OwnRuntime : Task → Prop
  | .routed _ route _ runtime => ∃ assigned, runtime = some assigned ∧ assigned.madeFor.eq route
  | _ => True

/-- Every connection uses a runtime that was made for a route equal to the one it matched. -/
def CountsOwnRoute (gate : Gate) : Prop := ∀ task ∈ gate.threads, OwnRuntime task

/-- The runtime that `route` carries over, that of the first equal old route, was last selected for
an equal route. -/
def carriesOwn (published oldRoutes : List Config.Route) (route : Config.Route) : Bool :=
  match oldRoutes.findIdx? fun r => r.eq route with
  | some k => published[k]?.all fun selected => selected.eq route
  | none => true

/-- A call of `set_config` reads the old runtimes while those of the routes that it is going to
carry over were last selected for equal routes. -/
def ReadsOwn (gate : Gate) : Event Task (Option Text) → Prop
  | .spawn _ => True
  | .move i _ => ∀ newConfig oldRoutes, gate.threads[i]? = some (.readRoutes newConfig oldRoutes) →
      ∀ route ∈ newConfig.routes, carriesOwn gate.shared.published oldRoutes route

instance (gate : Gate) (event : Event Task (Option Text)) : Decidable (gate.ReadsOwn event) :=
  match event with
  | .spawn _ => isTrue trivial
  | .move i _ =>
    match here : gate.threads[i]? with
    | some (.readRoutes newConfig oldRoutes) =>
      decidable_of_iff
        (∀ route ∈ newConfig.routes, carriesOwn gate.shared.published oldRoutes route)
        (by simp [ReadsOwn, here])
    | some (.reload _) | some (.published _) | some (.readRuntimes _ _ _) | some .returned
    | some .accepted | some (.waiting _) | some (.routed _ _ _ _) | some .closed | none =>
      isTrue (by simp [ReadsOwn, here])

/-- A connection that matches a route of its snapshot finds the runtimes last published for
a list with an equal route at that index. -/
def FindsOwnRoute (toLowercase : Text → Text) (gate : Gate) : Event Task (Option Text) → Prop
  | .move i (some hostname) => ∀ snapshot, gate.threads[i]? = some (.waiting snapshot) →
      ∀ index route captures,
      matchRoute toLowercase hostname 0 snapshot.routes = some (some (index, route, captures)) →
      ∃ selected, gate.shared.published[index]? = some selected ∧ selected.eq route
  | _ => True

instance (toLowercase : Text → Text) (gate : Gate) (event : Event Task (Option Text)) :
    Decidable (FindsOwnRoute toLowercase gate event) :=
  match event with
  | .spawn _ | .move _ none => isTrue trivial
  | .move i (some hostname) =>
    match here : gate.threads[i]? with
    | some (.waiting snapshot) =>
      match found : matchRoute toLowercase hostname 0 snapshot.routes with
      | some (some (index, route, captures)) =>
        match chosen : gate.shared.published[index]? with
        | some selected =>
          decidable_of_iff (selected.eq route = true) (by simp [FindsOwnRoute, here, found, chosen])
        | none => isFalse (by simp [FindsOwnRoute, here, found, chosen])
      | some none | none => isTrue (by simp [FindsOwnRoute, here, found])
    | some (.reload _) | some (.readRoutes _ _) | some (.readRuntimes _ _ _)
    | some (.published _) | some .returned | some .accepted | some (.routed _ _ _ _)
    | some .closed | none => isTrue (by simp [FindsOwnRoute, here])

/-- Wherever the runtimes are, each was made for a route equal to the one it was last selected
for. A call that has read them carries them over only for such routes. -/
structure MadeForOwn (gate : Gate) : Prop where
  published : gate.shared.Published
  held : ∀ i assigned, gate.shared.routeRuntime i = some assigned →
    assigned.madeFor.eq assigned.route
  carried : ∀ newConfig oldRoutes oldRuntimes,
    .readRuntimes newConfig oldRoutes oldRuntimes ∈ gate.threads →
    ∀ route ∈ newConfig.routes, ∀ assigned,
    (oldRoutes.findIdx? fun r => r.eq route).bind oldRuntimes.get = some assigned →
    assigned.madeFor.eq route

/-- A new map has new runtimes, and those that were carried over. -/
theorem newRuntimes_madeFor {oldRoutes routes : List Config.Route} {oldRuntimes : Runtimes}
    (carries : ∀ route ∈ routes, ∀ assigned,
      (oldRoutes.findIdx? fun r => r.eq route).bind oldRuntimes.get = some assigned →
      assigned.madeFor.eq route)
    (index nextArc k : Nat) (assigned : Assigned)
    (found : (newRuntimes oldRoutes oldRuntimes index nextArc routes).1.get k = some assigned) :
    assigned.madeFor.eq assigned.route := by
  induction routes generalizing index nextArc with
  | nil => cases found
  | cons route rest ih =>
    obtain ⟨first, others⟩ := List.forall_mem_cons.mp carries
    have entry (one : Assigned) (good : one.madeFor.eq one.route) (map : Runtimes)
        (later : map.get k = some assigned → assigned.madeFor.eq assigned.route)
        (found : Runtimes.get ((index, one) :: map) k = some assigned) :
        assigned.madeFor.eq assigned.route := by
      by_cases here : index = k
      · simp only [Runtimes.get, here, List.find?_cons_of_pos, decide_true, Option.map_some,
          Option.some.injEq] at found
        exact found ▸ good
      · simp only [Runtimes.get, List.find?_cons_of_neg, here, decide_false,
          Bool.false_eq_true, not_false_eq_true] at found
        exact later found
    unfold newRuntimes at found
    split at found
    next carried here => exact entry _ (first carried here) _ (ih others _ _) found
    next => exact entry _ (Config.Route.eq_iff.mpr rfl) _ (ih others _ _) found

theorem MadeForOwn.new (config : GateConfig) (messages : GateMessages) :
    MadeForOwn (Gate.new config messages) where
  published := AppState.new_published config messages
  held i assigned := newRuntimes_madeFor (by rintro route - assigned ⟨⟩) 0 0 i assigned
  carried newConfig oldRoutes oldRuntimes member := by cases member

/-- The entry of a map that is looked up is the one last selected for the route there. -/
theorem MadeForOwn.selected {gate : Gate} (made : gate.MadeForOwn) {i : Nat} {assigned : Assigned}
    (found : gate.shared.routeRuntime i = some assigned) :
    gate.shared.published[i]? = some assigned.route ∧ assigned.madeFor.eq assigned.route := by
  refine ⟨?_, made.held i assigned found⟩
  rw [← made.published i, found]
  rfl

theorem MadeForOwn.step {toLowercase : Text → Text} {gate next : Gate}
    {event : Event Task (Option Text)} (made : gate.MadeForOwn) (reads : gate.ReadsOwn event)
    (stepped : Gate.step toLowercase gate event = some next) : next.MadeForOwn := by
  have published := Gate.step_published made.published stepped
  cases event with
  | spawn task =>
    obtain ⟨fresh, rfl⟩ := step_spawn_eq_some.mp stepped
    refine ⟨published, made.held, fun newConfig oldRoutes oldRuntimes member => ?_⟩
    rcases List.mem_append.mp member with old | new
    · exact made.carried newConfig oldRoutes oldRuntimes old
    · rw [← List.mem_singleton.mp new] at fresh
      cases fresh
  | move i handshake =>
    obtain ⟨task, app, task', at_i, moved, rfl⟩ := step_move_eq_some.mp stepped
    -- only the reading of the old runtimes and the publishing matter
    have aside (same : app.routeRuntimes = gate.shared.routeRuntimes)
        (other : ∀ newConfig oldRoutes oldRuntimes,
          task' ≠ .readRuntimes newConfig oldRoutes oldRuntimes) :
        MadeForOwn ⟨app, gate.threads.set i task'⟩ := by
      refine ⟨published, fun k assigned found => ?_, fun _ _ _ member => ?_⟩
      · refine made.held k assigned ?_
        rwa [AppState.routeRuntime, ← same]
      · rcases List.mem_or_eq_of_mem_set member with old | new
        · exact made.carried _ _ _ old
        · exact absurd new.symm (other _ _ _)
    unfold Task.advance at moved
    split at moved
    case h_2 _ newConfig oldRoutes =>
      cases moved
      refine ⟨published, made.held, fun _ _ _ member => ?_⟩
      rcases List.mem_or_eq_of_mem_set member with old | new
      · exact made.carried _ _ _ old
      · cases new
        intro route inNew assigned found
        obtain ⟨k, first, stands⟩ := Option.bind_eq_some_iff.mp found
        obtain ⟨selected, own⟩ := made.selected stands
        have equal := reads newConfig oldRoutes at_i route inNew
        simp only [carriesOwn, first, selected, Option.all_some] at equal
        exact Config.Route.eq_iff.mpr
          ((Config.Route.eq_iff.mp own).trans (Config.Route.eq_iff.mp equal))
    case h_3 _ newConfig oldRoutes oldRuntimes =>
      cases moved
      have carries := made.carried _ _ _ (List.mem_of_getElem? at_i)
      refine ⟨published, newRuntimes_madeFor carries 0 gate.shared.nextArc, ?_⟩
      intro _ _ _ member
      rcases List.mem_or_eq_of_mem_set member with old | new
      · exact made.carried _ _ _ old
      · cases new
    case h_7 =>
      split at moved
      all_goals cases moved
      all_goals exact aside rfl (by rintro _ _ _ ⟨⟩)
    all_goals cases moved
    all_goals exact aside rfl (by rintro _ _ _ ⟨⟩)

private theorem ownRuntime_iff {gate : Gate} (made : gate.MadeForOwn) (index : Nat)
    (route : Config.Route) (captures : List Text) :
    OwnRuntime (.routed index route captures (gate.shared.routeRuntime index)) ↔
      ∃ selected, gate.shared.published[index]? = some selected ∧ selected.eq route := by
  simp only [Config.Route.eq_iff]
  constructor
  · rintro ⟨assigned, found, equal⟩
    obtain ⟨selected, own⟩ := made.selected found
    refine ⟨assigned.route, selected, ?_⟩
    exact (Config.Route.eq_iff.mp own).symm.trans (Config.Route.eq_iff.mp equal)
  · rintro ⟨selected, found, equal⟩
    rw [← made.published index] at found
    obtain ⟨assigned, here, rfl⟩ := Option.map_eq_some_iff.mp found
    have own := (made.selected here).2
    exact ⟨assigned, here, Config.Route.eq_iff.mpr ((Config.Route.eq_iff.mp own).trans equal)⟩

private theorem countsOwnRoute_step_iff {toLowercase : Text → Text} {gate next : Gate}
    {event : Event Task (Option Text)} (made : gate.MadeForOwn)
    (counts : gate.CountsOwnRoute) (stepped : Gate.step toLowercase gate event = some next) :
    next.CountsOwnRoute ↔ FindsOwnRoute toLowercase gate event := by
  cases event with
  | spawn task =>
    obtain ⟨ready, rfl⟩ := step_spawn_eq_some.mp stepped
    refine iff_of_true (fun other member => ?_) trivial
    rcases List.mem_append.mp member with old | new
    · exact counts other old
    · rw [List.mem_singleton.mp new]
      cases task <;> trivial
  | move i handshake =>
    obtain ⟨task, app, task', at_i, moved, rfl⟩ := step_move_eq_some.mp stepped
    have others : CountsOwnRoute ⟨app, gate.threads.set i task'⟩ ↔ OwnRuntime task' := by
      constructor
      · intro all
        obtain ⟨inRange, -⟩ := List.getElem?_eq_some_iff.mp at_i
        exact all task' (List.mem_set inRange task')
      · intro own
        exact (forall_mem_set_iff at_i (counts task (List.mem_of_getElem? at_i)) own).mpr counts
    rw [others]
    -- a task that ends up with no route asks for nothing
    have unrouted (own : OwnRuntime task')
        (none_ : ∀ hostname snapshot index route captures, handshake = some hostname →
          task = .waiting snapshot →
          matchRoute toLowercase hostname 0 snapshot.routes ≠
            some (some (index, route, captures))) :
        OwnRuntime task' ↔ FindsOwnRoute toLowercase gate (.move i handshake) := by
      refine iff_of_true own ?_
      cases handshake with
      | none => trivial
      | some hostname =>
        intro snapshot here index route captures matched
        rw [at_i] at here
        exact absurd matched (none_ hostname snapshot index route captures rfl
          (Option.some.inj here))
    unfold Task.advance at moved
    split at moved
    case h_7 snapshot hostname =>
      split at moved
      next index route captures matched =>
        cases moved
        rw [ownRuntime_iff made]
        constructor
        · intro found snapshot' here index' route' captures' matched'
          rw [at_i] at here
          cases here
          rw [matched] at matched'
          cases matched'
          exact found
        · intro finds
          exact finds snapshot at_i index route captures matched
      next unmatched =>
        cases moved
        refine unrouted trivial ?_
        rintro hostname' snapshot' index route captures same same'
        cases same
        cases same'
        exact unmatched index route captures
    all_goals cases moved
    all_goals exact unrouted trivial (by rintro _ _ _ _ _ same other; cases same <;> cases other)

/-- Where no call of `set_config` carries a runtime over from another route, every connection
counts against its own route's runtime exactly in the runs where each lookup finds an equal route
published at the index matched in the snapshot. -/
theorem countsOwnRoute_iff_findsOwnRoute (toLowercase : Text → Text) (config : GateConfig)
    (messages : GateMessages) (events : List (Event Task (Option Text))) (last : Gate)
    (ran : run (Gate.step toLowercase) (Gate.new config messages) events = some last)
    (reads : Guarded (Gate.step toLowercase) ReadsOwn (Gate.new config messages) events) :
    Always (Gate.step toLowercase) CountsOwnRoute (Gate.new config messages) events ↔
      Guarded (Gate.step toLowercase) (FindsOwnRoute toLowercase) (Gate.new config messages)
        events := by
  refine always_iff_guarded_of_guarded (fun _ _ _ made reads => made.step reads)
    (fun _ _ _ => countsOwnRoute_step_iff) (MadeForOwn.new config messages) ?_ reads ran
  intro task member
  cases member

/-- A route is added behind the one a waiting connection will match. -/
theorem countsOwnRoute_while_appending :
    Always (Gate.step (List.map Char.toLower)) CountsOwnRoute (Gate.new lobby {})
      [.spawn .accepted, .move 0 none, .spawn (.reload lobbyAndGames), .move 1 none, .move 1 none,
        .move 1 none, .move 1 none, .move 0 (some "Lobby.example.com".toList)] := by
  refine (countsOwnRoute_iff_findsOwnRoute _ lobby {} _ _ rfl ?_).mpr ?_
  · decide
  · decide

/-- The second reload reads the routes that the first one is about to replace, and the runtimes
that it has published: the two routes change runtimes. -/
def swappingReloads : List (Event Task (Option Text)) :=
  [.spawn (.reload gamesAndLobby), .move 0 none, .move 0 none, .move 0 none,
    .spawn (.reload lobbyAndGames), .move 1 none, .move 1 none, .move 1 none, .move 0 none,
    .move 1 none, .spawn .accepted, .move 2 none, .move 2 (some "lobby.example.com".toList)]

/-- The route a waiting connection will match moves up: the connection takes the runtime
that now stands at its old index, which is another route's. Overlapping reloads do the same to
connections whose route has not moved. -/
theorem pending_handshake_takes_other_runtime :
    (¬ ∀ (config : GateConfig) (messages : GateMessages)
        (events : List (Event Task (Option Text))) (last : Gate),
      run (Gate.step (List.map Char.toLower)) (Gate.new config messages) events = some last →
      last.CountsOwnRoute) ∧
    Guarded (Gate.step (List.map Char.toLower)) (FindsOwnRoute (List.map Char.toLower))
        (Gate.new lobbyAndGames {}) swappingReloads ∧
      ¬ Always (Gate.step (List.map Char.toLower)) CountsOwnRoute (Gate.new lobbyAndGames {})
        swappingReloads := by
  refine ⟨fun always => ?_, by decide, fun always => ?_⟩
  · have counts := always lobbyAndGames {}
      [.spawn .accepted, .move 0 none, .spawn (.reload gamesAndLobby), .move 1 none, .move 1 none,
        .move 1 none, .move 1 none, .move 0 (some "games.example.com".toList)] _ rfl
    obtain ⟨assigned, used, equal⟩ := counts _ (List.mem_of_getElem? (i := 0) rfl)
    cases used
    exact absurd equal (by decide)
  · have counts := always_iff_prefixes.mp always swappingReloads [] _ (List.append_nil _).symm rfl
    obtain ⟨assigned, used, equal⟩ := counts _ (List.mem_of_getElem? (i := 2) rfl)
    cases used
    exact absurd equal (by decide)

end Gate

end MCGate
