import MCGate.Config.Editor
import MCGate.Lib.StableSort
import MCGate.State.AppState
import MCGate.Std.Json

/-!
# The route endpoints of the API

`POST`, `PUT` and `DELETE` on `/v1/routes` edit the config file and apply what it then
loads to. A route is addressed by its index in the live, sorted list, and found in the file
by its set of hosts. The two do not always agree: the file's hosts are read as strings only,
the live ones with numbers and booleans turned into text. A new route goes to the end of the
file's list, which a file without `routes:` is given; on a `routes:` that is no list the loader
sees no routes and the editor panics.
-/
namespace MCGate.Api

open Config Yaml

/-! ### Request bodies -/

mutual

/-- `serde_yaml::to_value` -/
def Json.toValue : Json → Value
  | .null => .null
  | .bool b => .bool b
  | .number n => .number n
  | .string s => .string s
  | .array items => .sequence (toValues items)
  | .object entries => .mapping (toEntries entries)

def toValues : List Json → List Value
  | [] => []
  | item :: rest => item.toValue :: toValues rest

def toEntries : List (Text × Json) → Mapping
  | [] => []
  | entry :: rest => toEntry entry :: toEntries rest

def toEntry : Text × Json → Value × Value
  | (key, value) => (.string key, value.toValue)

end

def routeHostsFromJson (v : Json) : List Text :=
  match v.get "host".toList with
  | some (.array items) => items.filterMap Json.asStr
  | some (.string s) => [s]
  | _ => []

/-! ### Handlers -/

inductive Response where
  | unauthorized
  | notFound
  | badRequest (error : Text)
  /-- the blocking task panicked -/
  | internalServerError
  | route (status : Nat) (index : Nat) (route : Config.Route)
  | routeCount (status : Nat) (count : Nat)
  | deleted (routeCount : Nat)

/-- The live state and the contents of the config file. -/
structure Server (F : Type) where
  app : AppState
  file : Option F

def checkAuth (app : AppState) (authorization : Option Text) : Bool :=
  match app.config.api.token with
  | none => true
  | some token => authorization = some ("Bearer ".toList ++ token)

def routeMatchesHosts (route : Config.Route) (hosts : List Text) : Bool :=
  sameSet (route.hostPatterns.map HostPattern.raw) hosts

def emptyHost : Text := "route body must have a non-empty 'host' (string or array)".toList

def noLongerMatches : Text :=
  ("that route's host set no longer matches anything in config.yml (it may have changed since " ++
    "this index was read) - re-fetch GET /v1/routes and retry").toList

variable {F : Type} (env : Externals) (format : Format F) (configPath tmpPath : Text)

/-- The mutation of the file's document and the text it is written as. -/
def edit (file : Option F) (mutation : Mutation) : Except Response F :=
  match ConfigDocument.read format configPath file with
  | .error e => .error (.badRequest e)
  | .ok doc =>
    match mutation.apply doc with
    | none => .error .internalServerError
    | some none => .error (.badRequest noLongerMatches)
    | some (some doc) =>
      match format.toString doc.root with
      | .error _ => .error (.badRequest "failed to serialize config back to YAML".toList)
      | .ok yaml => .ok yaml

/-- How a failed load is answered. -/
def loadFailure : LoadError → Response
  | .failed message => .badRequest message
  | .panicked => .internalServerError

/-- `mutate_routes_file`, with no other request in between. -/
def mutateRoutesFile (server : Server F) (mutation : Mutation) :
    Server F × Except Response GateConfig :=
  match edit format configPath server.file mutation with
  | .error response => (server, .error response)
  | .ok yaml =>
    match loadConfig env format tmpPath (some yaml) server.app.messages with
    | .error e => (server, .error (loadFailure e))
    | .ok config => (⟨server.app.setConfig config, some yaml⟩, .ok config)

/-- The answer to a `POST` or `PUT` that went through: the route's place in the new list. -/
def routeResponse (status : Nat) (config : GateConfig) (hosts : List Text) : Response :=
  match config.routes.findIdx? fun route => routeMatchesHosts route hosts with
  | some i =>
    match config.routes[i]? with
    | some route => .route status i route
    | none => .routeCount status config.routes.length
  | none => .routeCount status config.routes.length

def createRouteHandler (server : Server F) (authorization : Option Text) (body : Json) :
    Server F × Response :=
  if ¬ checkAuth server.app authorization then (server, .unauthorized)
  else if (routeHostsFromJson body).isEmpty then (server, .badRequest emptyHost)
  else
    match mutateRoutesFile env format configPath tmpPath server (.create body.toValue) with
    | (server, .ok config) => (server, routeResponse 201 config (routeHostsFromJson body))
    | (server, .error response) => (server, response)

def updateRouteHandler (server : Server F) (authorization : Option Text) (index : Nat)
    (body : Json) : Server F × Response :=
  if ¬ checkAuth server.app authorization then (server, .unauthorized)
  else
    match server.app.config.routes[index]? with
    | none => (server, .notFound)
    | some existing =>
      if (routeHostsFromJson body).isEmpty then (server, .badRequest emptyHost)
      else
        let hosts := existing.hostPatterns.map HostPattern.raw
        match mutateRoutesFile env format configPath tmpPath server
          (.replace hosts body.toValue) with
        | (server, .ok config) => (server, routeResponse 200 config (routeHostsFromJson body))
        | (server, .error response) => (server, response)

def deleteRouteHandler (server : Server F) (authorization : Option Text) (index : Nat) :
    Server F × Response :=
  if ¬ checkAuth server.app authorization then (server, .unauthorized)
  else
    match server.app.config.routes[index]? with
    | none => (server, .notFound)
    | some existing =>
      match mutateRoutesFile env format configPath tmpPath server
        (.delete (existing.hostPatterns.map HostPattern.raw)) with
      | (server, .ok config) => (server, .deleted config.routes.length)
      | (server, .error response) => (server, response)

/-! ### One request alone -/

private theorem edit_eq_ok {file : Option F} {mutation : Mutation} {doc doc' : ConfigDocument}
    {yaml : F} (read : ConfigDocument.read format configPath file = .ok doc)
    (applied : mutation.apply doc = some (some doc'))
    (shown : format.toString doc'.root = .ok yaml) :
    edit format configPath file mutation = .ok yaml := by
  simp only [edit, read, applied, shown]

/-- `serde_yaml` shows every value as a text that it parses back. -/
def RoundTrips (format : Format F) : Prop :=
  ∀ value, ∃ text, format.toString value = .ok text ∧ format.fromStr text = .ok value

/-- A mutation whose outcome loads is written and applied. -/
theorem mutateRoutesFile_eq_ok (roundTrips : RoundTrips format) {server : Server F}
    {mutation : Mutation} {doc doc' : ConfigDocument} {config : GateConfig}
    (read : ConfigDocument.read format configPath server.file = .ok doc)
    (applied : mutation.apply doc = some (some doc'))
    (loads : loadValue env doc'.root server.app.messages = .ok config) :
    ∃ yaml, mutateRoutesFile env format configPath tmpPath server mutation =
        (⟨server.app.setConfig config, some yaml⟩, .ok config) ∧
      loadConfig env format configPath (some yaml) server.app.messages = .ok config := by
  obtain ⟨yaml, shown, parses⟩ := roundTrips doc'.root
  have loadsFrom (path : Text) :
      loadConfig env format path (some yaml) server.app.messages = .ok config := by
    simp only [loadConfig, parses, loads]
  refine ⟨yaml, ?_, loadsFrom configPath⟩
  simp only [mutateRoutesFile, edit_eq_ok format configPath read applied shown, loadsFrom tmpPath]

/-- The routes of a document, in the order of the file. -/
def fileRoutes (messages : GateMessages) (root : Value) : List Config.Route :=
  (rawRoutes (configSection root)).filterMap (routeOf env messages)

/-- The routes of an accepted document are read one by one and then sorted. -/
theorem fileRoutes_eq {messages : GateMessages} {root : Value} {config : GateConfig}
    (loaded : loadValue env root messages = .ok config) :
    (rawRoutes (configSection root)).map (routeOf env messages) =
        (fileRoutes env messages root).map some ∧
      config.routes = sortRoutes (fileRoutes env messages root) := by
  obtain ⟨routes, all, sorted, -⟩ := loadValue_eq_ok loaded
  have same : fileRoutes env messages root = routes := by
    have split := List.filterMap_map (f := routeOf env messages) (g := id)
      (l := rawRoutes (configSection root))
    rw [fileRoutes, ← Function.id_comp (routeOf env messages), ← split, all, List.filterMap_map]
    exact List.filterMap_some
  rw [same]
  exact ⟨all, sorted⟩

/-- A document with a route has a list of routes, which the editor finds. -/
theorem routesSeq_of_route {path : Text} {root : Value} {doc : ConfigDocument}
    (read : ConfigDocument.ofRoot path root = .ok doc)
    (some_route : rawRoutes (configSection root) ≠ []) :
    doc.ensureRoutes = doc ∧ doc.routesSeq = some (rawRoutes (configSection root)) := by
  have settings := ConfigDocument.settings_eq read
  cases entry : (configSection root).get "routes".toList with
  | none => exact absurd (by rw [rawRoutes, entry]; rfl) some_route
  | some v =>
    cases seq : v.asSequence with
    | none => exact absurd (by rw [rawRoutes, entry, Option.bind_some, seq]; rfl) some_route
    | some items =>
      constructor
      · rw [ConfigDocument.ensureRoutes, settings, entry]
        rfl
      · rw [ConfigDocument.routesSeq, settings, rawRoutes, entry, Option.bind_some, seq]
        rfl

/-- For each place of the live list, the place of its entry in the file. -/
def filePlaces (messages : GateMessages) (root : Value) : List Nat :=
  StableSort.sortPositions byPriority (fileRoutes env messages root)

def Response.succeeded : Response → Bool
  | .route _ _ _ | .routeCount _ _ | .deleted _ => true
  | .unauthorized | .notFound | .badRequest _ | .internalServerError => false

/-- `DELETE` of `index` goes through, and the file then loads to the live list without the
route at `target`. -/
def Deletes (server : Server F) (authorization : Option Text) (index target : Nat) : Prop :=
  let (after, response) :=
    deleteRouteHandler env format configPath tmpPath server authorization index
  response.succeeded ∧
    loadConfig env format configPath after.file server.app.messages =
      .ok { server.app.config with routes := server.app.config.routes.eraseIdx target }

/-- `PUT` of `index` goes through, and the file then loads to the routes of `root` with `route` in
place of the one read from entry `first`, sorted with ties in the order of the file: that is the
live list with `route` instead of the one at `target`, and at its place unless the priority is
another one. -/
def Replaces (server : Server F) (root : Value) (authorization : Option Text) (index : Nat)
    (body : Json) (first target : Nat) (route : Config.Route) : Prop :=
  let (after, response) :=
    updateRouteHandler env format configPath tmpPath server authorization index body
  let live := server.app.config.routes
  let routes := sortRoutes ((fileRoutes env server.app.messages root).set first route)
  response.succeeded ∧
    loadConfig env format configPath after.file server.app.messages =
      .ok { server.app.config with routes } ∧
    (∃ place, routes[place]? = some route ∧ routes.eraseIdx place = live.eraseIdx target) ∧
    (live[target]?.map Config.Route.priority = some route.priority → routes = live.set target route)

private theorem routeResponse_succeeded (status : Nat) (config : GateConfig) (hosts : List Text) :
    (routeResponse status config hosts).succeeded := by
  unfold routeResponse
  split
  · split <;> rfl
  · rfl

/-- The hosts that a request for `index` looks for in the file. -/
def hostsAt (config : GateConfig) (index : Nat) : List Text :=
  ((config.routes[index]?.map Config.Route.hostPatterns).getD []).map HostPattern.raw

section Alone

variable {env format configPath tmpPath} {server : Server F} {doc : ConfigDocument}
  {authorization : Option Text} {index first : Nat}

/-- The file is a document that the editor reads, and the live config is what it loads to. -/
structure InSync (env : Externals) (format : Format F) (configPath : Text) (server : Server F)
    (doc : ConfigDocument) : Prop where
  read : ConfigDocument.read format configPath server.file = .ok doc
  loaded : loadConfig env format configPath server.file server.app.messages = .ok server.app.config

/-- The editor and the loader parse a file to the same tree. -/
theorem ofRoot_of_read {file : Option F} {messages : GateMessages} {config : GateConfig}
    (read : ConfigDocument.read format configPath file = .ok doc)
    (loaded : loadConfig env format configPath file messages = .ok config) :
    ConfigDocument.ofRoot configPath doc.root = .ok doc ∧
      loadValue env doc.root messages = .ok config := by
  unfold ConfigDocument.read at read
  unfold loadConfig at loaded
  cases file with
  | none => cases read
  | some text =>
    simp only at read loaded
    cases parsed : format.fromStr text with
    | error message => simp only [parsed, reduceCtorEq] at read
    | ok root =>
      simp only [parsed] at read loaded
      obtain ⟨map, -, rfl⟩ := ConfigDocument.ofRoot_eq_ok read
      exact ⟨read, loaded⟩

theorem InSync.ofRoot (sync : InSync env format configPath server doc) :
    ConfigDocument.ofRoot configPath doc.root = .ok doc ∧
      loadValue env doc.root server.app.messages = .ok server.app.config :=
  ofRoot_of_read sync.read sync.loaded

/-- A document with a live route has a list of routes, which the editor finds. -/
theorem InSync.routesSeq (sync : InSync env format configPath server doc)
    (inRange : index < server.app.config.routes.length) :
    doc.ensureRoutes = doc ∧ doc.routesSeq = some (rawRoutes (configSection doc.root)) := by
  obtain ⟨read, loaded⟩ := sync.ofRoot
  obtain ⟨all, sorted⟩ := fileRoutes_eq env loaded
  apply routesSeq_of_route read
  intro none
  rw [none, List.map_nil, eq_comm, List.map_eq_nil_iff] at all
  rw [sorted, all] at inRange
  exact absurd inRange (Nat.not_lt_zero index)

/-- An edit of the list of routes to one that is read as `routes` is written and applied. -/
theorem InSync.mutate (sync : InSync env format configPath server doc)
    (roundTrips : RoundTrips format) (inRange : index < server.app.config.routes.length)
    (tmpPath : Text) {mutation : Mutation} {f : List Value → List Value}
    {routes : List Config.Route}
    (applied : mutation.apply doc = some (some (doc.modifyRoutes f)))
    (parsed : (f (rawRoutes (configSection doc.root))).map (routeOf env server.app.messages) =
      routes.map some) :
    ∃ yaml, mutateRoutesFile env format configPath tmpPath server mutation =
        (⟨server.app.setConfig { server.app.config with routes := sortRoutes routes }, some yaml⟩,
          .ok { server.app.config with routes := sortRoutes routes }) ∧
      loadConfig env format configPath (some yaml) server.app.messages =
        .ok { server.app.config with routes := sortRoutes routes } := by
  obtain ⟨read, loaded⟩ := sync.ofRoot
  obtain ⟨-, seq⟩ := sync.routesSeq inRange
  exact mutateRoutesFile_eq_ok env format configPath tmpPath roundTrips sync.read applied
    (ConfigDocument.loadValue_modifyRoutes read seq loaded parsed)

variable {target : Nat}

/-- The entry that `find_route_index` finds is deleted. -/
theorem InSync.deletes (sync : InSync env format configPath server doc)
    (roundTrips : RoundTrips format) (authorized : checkAuth server.app authorization)
    (inRange : index < server.app.config.routes.length)
    (found : findRouteIndex (rawRoutes (configSection doc.root))
      (hostsAt server.app.config index) = some first)
    (place : (filePlaces env server.app.messages doc.root)[target]? = some first) :
    Deletes env format configPath tmpPath server authorization index target := by
  obtain ⟨-, loaded⟩ := sync.ofRoot
  obtain ⟨all, sorted⟩ := fileRoutes_eq env loaded
  obtain ⟨present, seq⟩ := sync.routesSeq inRange
  have parsed : ((rawRoutes (configSection doc.root)).eraseIdx first).map
      (routeOf env server.app.messages) =
      ((fileRoutes env server.app.messages doc.root).eraseIdx first).map some := by
    rw [← List.eraseIdx_map, ← List.eraseIdx_map, all]
  obtain ⟨yaml, mutated, loads⟩ := sync.mutate roundTrips inRange tmpPath
    (Mutation.apply_delete present seq found) parsed
  have erased := StableSort.insertionSort_eraseIdx place
  rw [← sortRoutes, ← sortRoutes, ← sorted] at erased
  rw [erased] at mutated loads
  rw [hostsAt, List.getElem?_eq_getElem inRange, Option.map_some, Option.getD_some] at mutated
  simp only [Deletes, deleteRouteHandler, authorized, not_true, if_false,
    List.getElem?_eq_getElem inRange, mutated]
  exact ⟨rfl, loads⟩

/-- The entry that `find_route_index` finds is replaced. -/
theorem InSync.replaces (sync : InSync env format configPath server doc)
    (roundTrips : RoundTrips format) (authorized : checkAuth server.app authorization)
    (inRange : index < server.app.config.routes.length)
    (found : findRouteIndex (rawRoutes (configSection doc.root))
      (hostsAt server.app.config index) = some first)
    (place : (filePlaces env server.app.messages doc.root)[target]? = some first)
    {body : Json} {route : Config.Route} (named : ¬ (routeHostsFromJson body).isEmpty)
    (valid : routeOf env server.app.messages body.toValue = some route) :
    Replaces env format configPath tmpPath server doc.root authorization index body first target
      route := by
  obtain ⟨-, loaded⟩ := sync.ofRoot
  obtain ⟨all, sorted⟩ := fileRoutes_eq env loaded
  obtain ⟨present, seq⟩ := sync.routesSeq inRange
  have parsed : ((rawRoutes (configSection doc.root)).set first body.toValue).map
      (routeOf env server.app.messages) =
      ((fileRoutes env server.app.messages doc.root).set first route).map some := by
    rw [List.map_set, List.map_set, all, valid]
  obtain ⟨yaml, mutated, loads⟩ := sync.mutate roundTrips inRange tmpPath
    (Mutation.apply_replace body.toValue present seq found) parsed
  have others := StableSort.insertionSort_set route place
  rw [← sortRoutes, ← sortRoutes, ← sorted] at others
  rw [hostsAt, List.getElem?_eq_getElem inRange, Option.map_some, Option.getD_some] at mutated
  simp only [Replaces, updateRouteHandler, authorized, named, not_true, if_false,
    List.getElem?_eq_getElem inRange, mutated]
  refine ⟨routeResponse_succeeded _ _ _, loads, others, fun same => ?_⟩
  -- a route of the same priority takes the place of the old one
  rw [sorted, sortRoutes, StableSort.getElem?_insertionSort place] at same
  have tied (old : Config.Route)
      (at_first : (fileRoutes env server.app.messages doc.root)[first]? = some old)
      (other : Config.Route) :
      (byPriority route other ↔ byPriority old other) ∧
        (byPriority other route ↔ byPriority other old) := by
    rw [at_first, Option.map_some, Option.some.injEq] at same
    simp only [byPriority, same, iff_self, and_self]
  rw [sorted, sortRoutes, sortRoutes, StableSort.insertionSort_set_of_tied place tied]

/-- The editor finds in every entry of the file the hosts that the loader finds there. -/
def HostsAgree (env : Externals) (messages : GateMessages) (root : Value) : Prop :=
  ∀ entry ∈ rawRoutes (configSection root),
    (routeOf env messages entry).all fun route => routeMatchesHosts route (routeHosts entry)

instance (env : Externals) (messages : GateMessages) (root : Value) :
    Decidable (HostsAgree env messages root) :=
  inferInstanceAs (Decidable (∀ entry ∈ rawRoutes (configSection root),
    (routeOf env messages entry).all fun route => routeMatchesHosts route (routeHosts entry)))

/-- The first route of the file that has the hosts of the route at `index`. -/
def firstOfHosts (env : Externals) (app : AppState) (root : Value) (index : Nat) : Option Nat :=
  (fileRoutes env app.messages root).findIdx? fun route =>
    routeMatchesHosts route (hostsAt app.config index)

/-- No route above the one at `index` has the same hosts in the file. -/
def HostsAreNew (env : Externals) (app : AppState) (root : Value) (index : Nat) : Prop :=
  ∀ route ∈ (fileRoutes env app.messages root).take
      ((filePlaces env app.messages root)[index]?.getD 0),
    ¬ routeMatchesHosts route (hostsAt app.config index)

instance (env : Externals) (app : AppState) (root : Value) (index : Nat) :
    Decidable (HostsAreNew env app root index) :=
  inferInstanceAs (Decidable (∀ route ∈ (fileRoutes env app.messages root).take
      ((filePlaces env app.messages root)[index]?.getD 0),
    ¬ routeMatchesHosts route (hostsAt app.config index)))

/-- Where the hosts agree, the editor finds the entry of the route that the loader would find. -/
theorem findRouteIndex_eq_firstOfHosts {app : AppState} {root : Value}
    (all : (rawRoutes (configSection root)).map (routeOf env app.messages) =
      (fileRoutes env app.messages root).map some)
    (agree : HostsAgree env app.messages root) (index : Nat) :
    findRouteIndex (rawRoutes (configSection root)) (hostsAt app.config index) =
      firstOfHosts env app root index := by
  unfold HostsAgree at agree
  generalize rawRoutes (configSection root) = entries at all agree
  unfold findRouteIndex firstOfHosts
  generalize fileRoutes env app.messages root = routes at all
  induction entries generalizing routes with
  | nil => rw [List.map_eq_nil_iff.mp all.symm]; rfl
  | cons entry entries ih =>
    obtain ⟨here, later⟩ := List.forall_mem_cons.mp agree
    cases routes with
    | nil => cases all
    | cons route routes =>
      obtain ⟨read, rest⟩ := List.cons.inj all
      have same : sameSet (routeHosts entry) (hostsAt app.config index) =
          routeMatchesHosts route (hostsAt app.config index) := by
        rw [read, Option.all_some] at here
        exact sameSet_congr here _
      rw [List.findIdx?_cons, List.findIdx?_cons, same, ih later routes rest]

variable (tmpPath authorization index) in
/-- A route is what its hosts say: where the editor and the loader agree on the hosts of every
entry, a request for an index deletes or replaces the first route of the file with these hosts,
which is the one at the index unless an earlier one has the same hosts. -/
theorem request_edits_first_of_hosts (roundTrips : RoundTrips format)
    (sync : InSync env format configPath server doc)
    (authorized : checkAuth server.app authorization)
    (inRange : index < server.app.config.routes.length)
    (agree : HostsAgree env server.app.messages doc.root) :
    ∃ first target, firstOfHosts env server.app doc.root index = some first ∧
      (filePlaces env server.app.messages doc.root)[target]? = some first ∧
      (HostsAreNew env server.app doc.root index → target = index) ∧
      Deletes env format configPath tmpPath server authorization index target ∧
      ∀ body route, ¬ (routeHostsFromJson body).isEmpty →
        routeOf env server.app.messages body.toValue = some route →
        Replaces env format configPath tmpPath server doc.root authorization index body first target
          route := by
  obtain ⟨-, loaded⟩ := sync.ofRoot
  obtain ⟨all, sorted⟩ := fileRoutes_eq env loaded
  have perm := StableSort.sortPositions_perm (r := byPriority)
    (fileRoutes env server.app.messages doc.root)
  have listed {k : Nat} (below : k < (fileRoutes env server.app.messages doc.root).length) :
      k ∈ filePlaces env server.app.messages doc.root :=
    perm.symm.subset (List.mem_range.mpr below)
  -- the route at the index has its own hosts
  have inPlaces : index < (filePlaces env server.app.messages doc.root).length := by
    rw [filePlaces, perm.length_eq, List.length_range]
    rwa [sorted, sortRoutes, List.length_insertionSort] at inRange
  obtain ⟨own, place⟩ : ∃ own, (filePlaces env server.app.messages doc.root)[index]? = some own :=
    ⟨_, List.getElem?_eq_getElem inPlaces⟩
  have at_own : (fileRoutes env server.app.messages doc.root)[own]? =
      some server.app.config.routes[index] := by
    rw [← StableSort.getElem?_insertionSort place, ← sortRoutes, ← sorted,
      List.getElem?_eq_getElem inRange]
  have itself : routeMatchesHosts server.app.config.routes[index]
      (hostsAt server.app.config index) := by
    rw [hostsAt, List.getElem?_eq_getElem inRange, Option.map_some, Option.getD_some]
    exact sameSet_refl _
  have edited := findRouteIndex_eq_firstOfHosts all agree index
  cases found : firstOfHosts env server.app doc.root index with
  | none =>
    have nowhere := List.findIdx?_eq_none_iff.mp found _ (List.mem_of_getElem? at_own)
    exact absurd itself (by simp [nowhere])
  | some first =>
    rw [found] at edited
    obtain ⟨below, matched, before⟩ := List.findIdx?_eq_some_iff_getElem.mp found
    obtain ⟨target, at_target⟩ := List.mem_iff_getElem?.mp (listed below)
    refine ⟨first, target, rfl, at_target, fun new => ?_,
      sync.deletes roundTrips authorized inRange edited at_target,
      fun body route named valid =>
        sync.replaces roundTrips authorized inRange edited at_target named valid⟩
    -- the first route with these hosts is not after the own one, and not before it either
    have notAfter : ¬ own < first := by
      intro after
      obtain ⟨inFile, same⟩ := List.getElem?_eq_some_iff.mp at_own
      exact before own after (same ▸ itself)
    have notBefore : ¬ first < own := fun earlier =>
      new _ (List.mem_take_iff_getElem.mpr ⟨first, by simp [place]; omega, rfl⟩) matched
    obtain rfl : first = own := by omega
    obtain ⟨inPlaces, stands⟩ := List.getElem?_eq_some_iff.mp at_target
    obtain ⟨inPlaces', stands'⟩ := List.getElem?_eq_some_iff.mp place
    have distinct : (filePlaces env server.app.messages doc.root).Nodup :=
      perm.nodup_iff.mpr List.nodup_range
    exact (distinct.getElem_inj_iff).mp (stands.trans stands'.symm)

end Alone

/-- Files that hold the parsed value itself. -/
def valueFormat : Format Value where
  fromStr value := .ok value
  toString value := .ok value

private theorem valueFormat_roundTrips : RoundTrips valueFormat := fun value => ⟨value, rfl, rfl⟩

def routeEntry (host backend : String) (priority : UInt64) : Value :=
  .mapping [(.string "host".toList, .string host.toList),
    (.string "backend".toList, .string backend.toList),
    (.string "priority".toList, .number (.posInt priority))]

def document (routes : List Value) : Value :=
  .mapping [(.string "routes".toList, .sequence routes)]

def silentMessages : GateMessages :=
  { reconnect := { title := [], subtitle := [], attemptSuffix := [], actionBarFrames := [] } }

/-- The server right after it has started with this file. -/
def started (root : Value) : Server Value :=
  let loaded := loadConfig asciiExternals valueFormat [] (some root) silentMessages
  ⟨AppState.new (loaded.toOption.getD {}) silentMessages, some root⟩

private theorem started_inSync {root : Value} {doc : ConfigDocument}
    (read : ConfigDocument.read valueFormat [] (some root) = .ok doc)
    (loads :
      (loadConfig asciiExternals valueFormat [] (some root) silentMessages).toOption.isSome) :
    InSync asciiExternals valueFormat [] (started root) doc := by
  refine ⟨read, ?_⟩
  cases loaded : loadConfig asciiExternals valueFormat [] (some root) silentMessages with
  | error e =>
    rw [loaded] at loads
    cases loads
  | ok config =>
    simp only [started, loaded, Except.toOption, Option.getD_some]
    exact loaded

def lobbyAndGames : Value :=
  document
    [routeEntry "lobby.example.com" "10.0.0.1" 0, routeEntry "games.example.com" "10.0.0.2" 5]

/-- The last entry of the file is sorted first, and it is the one that is deleted. -/
theorem delete_sorted_first :
    Deletes asciiExternals valueFormat [] [] (started lobbyAndGames) none 0 0 := by
  have sync : InSync asciiExternals valueFormat [] (started lobbyAndGames) _ :=
    started_inSync rfl (by decide)
  obtain ⟨first, target, -, -, own, deletes, -⟩ :=
    request_edits_first_of_hosts [] none 0 valueFormat_roundTrips sync (by decide) (by decide)
      (by decide)
  exact own (by decide) ▸ deletes

/-- Of two routes with the same host, a request for the second deletes the first. -/
theorem delete_second_of_two :
    ¬ ∀ (F : Type) (env : Externals) (format : Format F) (configPath tmpPath : Text)
        (server : Server F) (doc : ConfigDocument) (authorization : Option Text)
        (index own : Nat),
      RoundTrips format → InSync env format configPath server doc →
      checkAuth server.app authorization → index < server.app.config.routes.length →
      (filePlaces env server.app.messages doc.root)[index]? = some own →
      Deletes env format configPath tmpPath server authorization index index ∧
        ∀ body route, ¬ (routeHostsFromJson body).isEmpty →
          routeOf env server.app.messages body.toValue = some route →
          Replaces env format configPath tmpPath server doc.root authorization index body own index
            route := by
  intro exact_index
  have deletes := (exact_index Value asciiExternals valueFormat [] []
    (started (document [routeEntry "lobby.example.com" "10.0.0.1" 0,
      routeEntry "lobby.example.com" "10.0.0.2" 0])) _ none 1 1 valueFormat_roundTrips
    (started_inSync rfl (by decide)) (by decide) (by decide) (by decide)).1.2
  -- what is left is the second route
  have backends := congrArg
    (fun result => (Except.toOption result).map fun config =>
      config.routes.map Config.Route.backendTemplates) deletes
  exact absurd backends (by decide)

/-! ### A route is added -/

/-- The document takes the new route, and its text then loads to the routes it had before with
this one in its place: behind all of at least its priority, in front of all others. -/
def Creates {F : Type} (env : Externals) (format : Format F) (configPath : Text)
    (messages : GateMessages) (doc : ConfigDocument) (config : GateConfig) (entry : Value)
    (route : Config.Route) : Prop :=
  ∃ doc' text before after, (Mutation.create entry).apply doc = some (some doc') ∧
    format.toString doc'.root = .ok text ∧ config.routes = before ++ after ∧
    loadConfig env format configPath (some text) messages =
      .ok { config with routes := before ++ route :: after } ∧
    (before ++ route :: after).Pairwise byPriority ∧
    (∀ other ∈ before, route.priority.toInt ≤ other.priority.toInt) ∧
    ∀ other ∈ after, other.priority.toInt < route.priority.toInt

/-- A file that the editor reads and the loader accepts takes every route that is read as one
exactly when its `routes:` is missing or a sequence. -/
theorem creates_iff {F : Type} {env : Externals} {format : Format F} {configPath : Text}
    {messages : GateMessages} {file : Option F} {doc : ConfigDocument} {config : GateConfig}
    {entry : Value} {route : Config.Route} (roundTrips : RoundTrips format)
    (read : ConfigDocument.read format configPath file = .ok doc)
    (loaded : loadConfig env format configPath file messages = .ok config)
    (parsed : routeOf env messages entry = some route) :
    Creates env format configPath messages doc config entry route ↔ doc.listsRoutes := by
  constructor
  · rintro ⟨doc', _, _, _, applied, -⟩
    by_contra lists
    rw [Mutation.apply_create, ConfigDocument.routesSeq_of_not_listsRoutes lists] at applied
    cases applied
  · intro lists
    obtain ⟨readRoot, loads⟩ := ofRoot_of_read read loaded
    obtain ⟨readAgain, seq, loadsAgain⟩ := ConfigDocument.ensureRoutes_spec readRoot lists loads
    obtain ⟨all, sorted⟩ := fileRoutes_eq env loads
    obtain ⟨before, after, split, added, low, high⟩ :=
      StableSort.insertionSort_concat (r := byPriority) (fileRoutes env messages doc.root) route
    have both : (rawRoutes (configSection doc.root) ++ [entry]).map (routeOf env messages) =
        (fileRoutes env messages doc.root ++ [route]).map some := by
      rw [List.map_append, List.map_append, all, List.map_singleton, List.map_singleton, parsed]
    have appended := ConfigDocument.loadValue_modifyRoutes (f := fun routes => routes ++ [entry])
      readAgain seq loadsAgain both
    rw [sortRoutes, added] at appended
    obtain ⟨text, shown, parses⟩ := roundTrips
      (doc.ensureRoutes.modifyRoutes fun routes => routes ++ [entry]).root
    refine ⟨_, text, before, after, ?_, shown, ?_, ?_, ?_, low, fun other member => ?_⟩
    · rw [Mutation.apply_create, seq, Option.map_some]
    · rw [sorted, sortRoutes, split]
    · simp only [loadConfig, parses, appended]
    · rw [← added]
      exact List.pairwise_insertionSort byPriority _
    · exact Int.not_le.mp (high other member)

def hubEntry : Value := routeEntry "hub.example.com" "10.0.0.3" 3

private theorem hubEntry_parsed :
    ∃ route, routeOf asciiExternals silentMessages hubEntry = some route :=
  Option.isSome_iff_exists.mp (by decide)

/-- A route of a priority between those of the file is added between its routes. -/
theorem hub_created :
    ∃ doc route, ConfigDocument.read valueFormat [] (some lobbyAndGames) = .ok doc ∧
      routeOf asciiExternals silentMessages hubEntry = some route ∧
      Creates asciiExternals valueFormat [] silentMessages doc (started lobbyAndGames).app.config
        hubEntry route := by
  have sync : InSync asciiExternals valueFormat [] (started lobbyAndGames) _ :=
    started_inSync rfl (by decide)
  obtain ⟨route, parsed⟩ := hubEntry_parsed
  exact ⟨_, route, sync.read, parsed,
    (creates_iff valueFormat_roundTrips sync.read sync.loaded parsed).mpr (by decide)⟩

/-- A file whose `routes:` is left empty. -/
def emptyRoutes : Value := .mapping [(.string "routes".toList, .null)]

/-- The loader takes an empty `routes:` for no routes, and the editor panics on it. -/
theorem empty_routes_panic :
    ¬ ∀ (F : Type) (env : Externals) (format : Format F) (configPath : Text)
        (messages : GateMessages) (file : Option F) (doc : ConfigDocument) (config : GateConfig)
        (entry : Value) (route : Config.Route),
      RoundTrips format → ConfigDocument.read format configPath file = .ok doc →
      loadConfig env format configPath file messages = .ok config →
      routeOf env messages entry = some route →
      Creates env format configPath messages doc config entry route := by
  intro always
  have sync : InSync asciiExternals valueFormat [] (started emptyRoutes) _ :=
    started_inSync rfl (by decide)
  obtain ⟨route, parsed⟩ := hubEntry_parsed
  obtain ⟨_, _, _, _, applied, -⟩ := always Value asciiExternals valueFormat [] silentMessages
    (some emptyRoutes) _ _ hubEntry route valueFormat_roundTrips sync.read sync.loaded parsed
  cases applied

end MCGate.Api
