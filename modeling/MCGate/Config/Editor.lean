import MCGate.Config.Loader
import MCGate.Lib.Threads

/-!
# Editing the configuration file

A route mutation works on the raw YAML tree of the file. `write_validated` writes the new
contents to a temporary file, loads them from there, and only then writes the real file.
The temporary path depends on the config path alone, so calls that run at the same time
share it: the threads of the pool are such calls, one step for each file operation.
-/
namespace MCGate.Config

open Yaml Machine Threads

/-- A file's contents are not accepted, with the message. -/
abbrev EditError := Text

structure ConfigDocument where
  root : Value
  hasConfigWrapper : Bool

namespace ConfigDocument

/-- The document of a parsed file; its root has to be a mapping. -/
def ofRoot (path : Text) (root : Value) : Except EditError ConfigDocument :=
  match root.asMapping with
  | none => .error (path ++ " does not contain a YAML mapping at its root".toList)
  | some map => .ok { root, hasConfigWrapper := (getMap map "config").isSome }

def read {F : Type} (format : Format F) (path : Text) (file : Option F) :
    Except EditError ConfigDocument :=
  match file with
  | none => .error ("Config file not found: ".toList ++ path)
  | some text =>
    match format.fromStr text with
    | .error _ => .error (path ++ " is not valid YAML".toList)
    | .ok root => ofRoot path root

/-- `section_mut`, as what assigning through it does to the document. -/
def modifySection (doc : ConfigDocument) (f : Mapping → Mapping) : ConfigDocument :=
  { doc with
    root := doc.root.modifyMapping fun map =>
      if doc.hasConfigWrapper then map.modify "config".toList (Value.modifyMapping f) else f map }

/-- The mapping that holds the settings. -/
def settings (doc : ConfigDocument) : Mapping :=
  let map := doc.root.asMapping.getD []
  if doc.hasConfigWrapper then (getMap map "config").getD [] else map

/-- The first half of `routes_seq_mut`: a missing `routes:` key is added. -/
def ensureRoutes (doc : ConfigDocument) : ConfigDocument :=
  if (doc.settings.get "routes".toList).isSome then doc
  else doc.modifySection fun map => map.push "routes".toList (.sequence [])

/-- The second half of `routes_seq_mut`; a `routes:` that is no sequence panics. -/
def routesSeq (doc : ConfigDocument) : Option (List Value) :=
  (doc.settings.get "routes".toList).bind Value.asSequence

/-- Assigning through `routes_seq_mut`. -/
def modifyRoutes (doc : ConfigDocument) (f : List Value → List Value) : ConfigDocument :=
  doc.modifySection fun map => map.modify "routes".toList (Value.modifySequence f)

end ConfigDocument

def routeHosts (route : Value) : List Text :=
  match route.asMapping with
  | none => []
  | some map =>
    match map.get "host".toList with
    | some (.sequence seq) => seq.filterMap Value.asStr
    | some (.string s) => [s]
    | _ => []

/-- Equality of the `HashSet`s of two lists. -/
def sameSet (one two : List Text) : Bool :=
  one.all (two.contains ·) && two.all (one.contains ·)

private theorem sameSet_iff {one two : List Text} :
    sameSet one two ↔ ∀ host, host ∈ one ↔ host ∈ two := by
  simp only [sameSet, Bool.and_eq_true, List.all_eq_true, List.contains_iff_mem]
  exact ⟨fun both host => ⟨both.1 host, both.2 host⟩,
    fun same => ⟨fun host => (same host).mp, fun host => (same host).mpr⟩⟩

theorem sameSet_refl (hosts : List Text) : sameSet hosts hosts :=
  sameSet_iff.mpr fun _ => Iff.rfl

theorem sameSet_congr {one two : List Text} (same : sameSet one two) (hosts : List Text) :
    sameSet two hosts = sameSet one hosts := by
  rw [Bool.eq_iff_iff, sameSet_iff, sameSet_iff]
  exact forall_congr' fun host => by rw [sameSet_iff.mp same host]

def findRouteIndex (routes : List Value) (hosts : List Text) : Option Nat :=
  routes.findIdx? fun route => sameSet (routeHosts route) hosts

/-- A route mutation: `create_route`, `replace_route` or `delete_route`. -/
inductive Mutation where
  | create (route : Value)
  | replace (hosts : List Text) (newRoute : Value)
  | delete (hosts : List Text)

/-- The document after the mutation; `false` in the source is `some none` here, and the
outer `none` is a panic. -/
def Mutation.apply (doc : ConfigDocument) (mutation : Mutation) :
    Option (Option ConfigDocument) := do
  let doc := doc.ensureRoutes
  let routes ← doc.routesSeq
  match mutation with
  | .create route => return some (doc.modifyRoutes fun routes => routes ++ [route])
  | .replace hosts newRoute =>
    return (findRouteIndex routes hosts).map fun i =>
      doc.modifyRoutes fun routes => routes.set i newRoute
  | .delete hosts =>
    return (findRouteIndex routes hosts).map fun i =>
      doc.modifyRoutes fun routes => routes.eraseIdx i

namespace Mutation

theorem apply_create (doc : ConfigDocument) (route : Value) :
    (Mutation.create route).apply doc = doc.ensureRoutes.routesSeq.map fun _ =>
      some (doc.ensureRoutes.modifyRoutes fun routes => routes ++ [route]) := by
  simp only [Mutation.apply]
  cases doc.ensureRoutes.routesSeq <;> rfl

variable {doc : ConfigDocument} {raw : List Value} {hosts : List Text} {i : Nat}

theorem apply_replace (newRoute : Value) (present : doc.ensureRoutes = doc)
    (seq : doc.routesSeq = some raw) (found : findRouteIndex raw hosts = some i) :
    (Mutation.replace hosts newRoute).apply doc =
      some (some (doc.modifyRoutes fun routes => routes.set i newRoute)) := by
  simp [Mutation.apply, present, seq, found]

theorem apply_delete (present : doc.ensureRoutes = doc) (seq : doc.routesSeq = some raw)
    (found : findRouteIndex raw hosts = some i) :
    (Mutation.delete hosts).apply doc =
      some (some (doc.modifyRoutes fun routes => routes.eraseIdx i)) := by
  simp [Mutation.apply, present, seq, found]

end Mutation

/-! ### What an edit does to the loaded routes -/

namespace ConfigDocument

theorem ofRoot_eq_ok {path : Text} {root : Value} {doc : ConfigDocument}
    (read : ofRoot path root = .ok doc) :
    ∃ map, root.asMapping = some map ∧ doc = ⟨root, (getMap map "config").isSome⟩ := by
  unfold ofRoot at read
  split at read
  next => cases read
  next map isMap =>
    cases read
    exact ⟨map, isMap, rfl⟩

theorem settings_eq {path : Text} {root : Value} {doc : ConfigDocument}
    (read : ofRoot path root = .ok doc) : doc.settings = configSection root := by
  obtain ⟨map, isMap, rfl⟩ := ofRoot_eq_ok read
  simp only [settings, configSection, isMap, Option.getD_some]
  cases getMap map "config" <;> rfl

/-- The loader finds the settings where the editor has edited them, and the edited document
is read the same way. -/
theorem modifySection_section {path : Text} {root : Value} {doc : ConfigDocument}
    {f : Mapping → Mapping} (read : ofRoot path root = .ok doc)
    (keeps : ∀ map, getMap (f map) "config" = getMap map "config") :
    configSection (doc.modifySection f).root = f (configSection root) ∧
      ofRoot path (doc.modifySection f).root = .ok (doc.modifySection f) := by
  obtain ⟨map, isMap, rfl⟩ := ofRoot_eq_ok read
  simp only [configSection, ofRoot, modifySection, Value.asMapping_modifyMapping, isMap,
    Option.map_some, Option.getD_some]
  cases wrapped : getMap map "config" with
  | none => simp [keeps, wrapped]
  | some inner =>
    have edited : getMap (map.modify "config".toList (Value.modifyMapping f)) "config" =
        some (f inner) := by
      obtain ⟨v, found, isInner⟩ := Option.bind_eq_some_iff.mp wrapped
      rw [getMap, Mapping.get_modify_self, found]
      simp [isInner]
    simp only [Option.isSome_some, if_true, edited, Option.getD_some, and_self]

private theorem modifyRoutes_keeps (f : List Value → List Value) (map : Mapping) :
    getMap (map.modify "routes".toList (Value.modifySequence f)) "config" =
      getMap map "config" := by
  rw [getMap, Mapping.get_modify_of_ne (by decide), getMap]

/-- The loader finds the routes where the editor has edited them. -/
theorem configSection_modifyRoutes {path : Text} {root : Value} {doc : ConfigDocument}
    (read : ofRoot path root = .ok doc) (f : List Value → List Value) :
    configSection (doc.modifyRoutes f).root =
      (configSection root).modify "routes".toList (Value.modifySequence f) :=
  (modifySection_section read (modifyRoutes_keeps f)).1

/-- After an edit of the routes, the file loads to the edited list and nothing else changes. -/
theorem loadValue_modifyRoutes {env : Externals} {messages : GateMessages} {path : Text}
    {root : Value} {doc : ConfigDocument} {raw : List Value} {f : List Value → List Value}
    {config : GateConfig} {routes : List Route} (read : ofRoot path root = .ok doc)
    (seq : doc.routesSeq = some raw) (loaded : loadValue env root messages = .ok config)
    (parsed : (f raw).map (routeOf env messages) = routes.map some) :
    loadValue env (doc.modifyRoutes f).root messages =
      .ok { config with routes := sortRoutes routes } := by
  rw [routesSeq, settings_eq read] at seq
  obtain ⟨_, -, settings⟩ := bind_eq_ok.mp loaded
  have raw' : rawRoutes ((configSection root).modify "routes".toList (Value.modifySequence f)) =
      f raw := by
    obtain ⟨v, found, isSeq⟩ := Option.bind_eq_some_iff.mp seq
    rw [rawRoutes, Mapping.get_modify_self, found]
    simp [isSeq]
  rw [loadValue, configSection_modifyRoutes read]
  refine bind_eq_ok.mpr ⟨routes, ?_, loadSettings_congr (fun key other => ?_) settings⟩
  · rw [raw', parseRoutes_eq_ok]
    exact parsed
  · apply Mapping.get_modify_of_ne
    exact fun same => other (String.toList_inj.mp same)

/-! ### Making room for a route -/

/-- The settings have no `routes:` key, or it holds a sequence. -/
def listsRoutes (doc : ConfigDocument) : Bool :=
  (doc.settings.get "routes".toList).all fun v => v.asSequence.isSome

/-- A document without `routes:` is given an empty list, which loads to the same config. -/
theorem ensureRoutes_of_none {env : Externals} {messages : GateMessages} {path : Text}
    {root : Value} {doc : ConfigDocument} {config : GateConfig}
    (read : ofRoot path root = .ok doc) (absent : (configSection root).get "routes".toList = none)
    (loaded : loadValue env root messages = .ok config) :
    ofRoot path doc.ensureRoutes.root = .ok doc.ensureRoutes ∧
      doc.ensureRoutes.routesSeq = some [] ∧
      loadValue env doc.ensureRoutes.root messages = .ok config := by
  have ensured : doc.ensureRoutes =
      doc.modifySection fun map => map.push "routes".toList (.sequence []) := by
    rw [ensureRoutes, settings_eq read, absent, Option.isSome_none, if_neg (by decide)]
  -- the new key stands behind all others, so the wrapper is found as before
  obtain ⟨settings, readAgain⟩ :=
    modifySection_section (f := fun map => map.push "routes".toList (.sequence [])) read
      fun map => by rw [getMap, Mapping.get_push_of_ne (by decide), getMap]
  rw [← ensured] at settings readAgain
  have empty : (configSection doc.ensureRoutes.root).get "routes".toList = some (.sequence []) := by
    rw [settings, Mapping.get_push_self _ absent]
  refine ⟨readAgain, ?_, ?_⟩
  · rw [routesSeq, settings_eq readAgain, empty]
    rfl
  · obtain ⟨routes, parsed, sorted, others⟩ := loadValue_eq_ok loaded
    have none : rawRoutes (configSection root) = [] := by rw [rawRoutes, absent]; rfl
    rw [none] at parsed
    have unchanged : loadSettings (configSection doc.ensureRoutes.root) (sortRoutes routes) =
        .ok { config with routes := sortRoutes routes } := by
      refine loadSettings_congr (fun key other => ?_) others
      rw [settings]
      exact Mapping.get_push_of_ne fun same => other (String.toList_inj.mp same)
    rw [← sorted] at unchanged
    refine bind_eq_ok.mpr ⟨routes, parseRoutes_eq_ok.mpr ?_, sorted ▸ unchanged⟩
    rw [rawRoutes, empty]
    exact parsed

/-- What `ensureRoutes` makes of a document whose `routes:` is missing or a sequence. -/
theorem ensureRoutes_spec {env : Externals} {messages : GateMessages} {path : Text}
    {root : Value} {doc : ConfigDocument} {config : GateConfig}
    (read : ofRoot path root = .ok doc) (lists : doc.listsRoutes)
    (loaded : loadValue env root messages = .ok config) :
    ofRoot path doc.ensureRoutes.root = .ok doc.ensureRoutes ∧
      doc.ensureRoutes.routesSeq = some (rawRoutes (configSection root)) ∧
      loadValue env doc.ensureRoutes.root messages = .ok config := by
  cases entry : (configSection root).get "routes".toList with
  | none =>
    rw [rawRoutes, entry]
    exact ensureRoutes_of_none read entry loaded
  | some v =>
    rw [listsRoutes, settings_eq read, entry, Option.all_some] at lists
    obtain ⟨raw, isSeq⟩ := Option.isSome_iff_exists.mp lists
    -- the key is there, whatever its value is, and nothing is inserted
    have present : doc.ensureRoutes = doc := by
      rw [ensureRoutes, settings_eq read, entry, Option.isSome_some, if_pos rfl]
    obtain ⟨map, -, same⟩ := ofRoot_eq_ok read
    rw [present, routesSeq, settings_eq read, rawRoutes, entry, Option.bind_some, isSeq]
    subst same
    exact ⟨read, rfl, loaded⟩

/-- A `routes:` that is no sequence panics. -/
theorem routesSeq_of_not_listsRoutes {doc : ConfigDocument} (lists : ¬ doc.listsRoutes) :
    doc.ensureRoutes.routesSeq = none := by
  unfold listsRoutes at lists
  cases entry : doc.settings.get "routes".toList with
  | none => simp only [entry, Option.all_none, not_true_eq_false] at lists
  | some v =>
    rw [entry, Option.all_some, Option.isSome_iff_ne_none, ne_eq, not_not] at lists
    rw [ensureRoutes, entry, Option.isSome_some, if_pos rfl, routesSeq, entry, Option.bind_some,
      lists]

end ConfigDocument

/-! ### Writing -/

-- `tmpPath` is what `with_extension("yml.tmp-validate")` makes of the config path: the
-- same path for every call.
variable {F : Type} (env : Externals) (format : Format F) (tmpPath : Text)

/-- The files two calls share, and what has been written to the real one, with the
messages its writer loaded against. Only the statements read `written`. -/
structure Files (F : Type) where
  real : Option F
  tmp : Option F
  written : List (F × GateMessages)

/-- A call of `write_validated`, after each of its file operations. -/
inductive Write (F : Type) where
  | called (yaml : F) (messages : GateMessages)
  | wroteTmp (yaml : F) (messages : GateMessages)
  | loaded (yaml : F) (messages : GateMessages) (result : Except LoadError GateConfig)
  | removedTmp (yaml : F) (messages : GateMessages) (result : Except LoadError GateConfig)
  | done (config : GateConfig)
  | rejected (error : LoadError)

namespace Write

def fresh : Write F → Bool
  | .called _ _ => true
  | _ => false

/-- One file operation. A load that panics ends the call before the temporary file is removed. -/
def advance (files : Files F) : Write F → Unit → Option (Files F × Write F)
  | .called yaml messages, _ => some ({ files with tmp := some yaml }, .wroteTmp yaml messages)
  | .wroteTmp yaml messages, _ =>
    match loadConfig env format tmpPath files.tmp messages with
    | .error .panicked => some (files, .rejected .panicked)
    | result => some (files, .loaded yaml messages result)
  | .loaded yaml messages result, _ =>
    some ({ files with tmp := none }, .removedTmp yaml messages result)
  | .removedTmp yaml messages result, _ =>
    match result with
    | .error e => some (files, .rejected e)
    | .ok config =>
      some ({ files with real := some yaml, written := files.written ++ [(yaml, messages)] },
        .done config)
  | .done _, _ => none
  | .rejected _, _ => none

/-- `load_config` accepts the contents. -/
def Accepts (messages : GateMessages) (file : Option F) : Prop :=
  ∃ config, loadConfig env format tmpPath file messages = .ok config

/-- Everything that was ever written to the real file is accepted. -/
def WrittenAccepted (files : Files F) : Prop :=
  ∀ entry ∈ files.written, Accepts env format tmpPath entry.2 (some entry.1)

/-- A call that has passed its validation would pass it with its own contents. -/
def PassedOwn : Write F → Prop
  | .loaded yaml messages (.ok _) => Accepts env format tmpPath messages (some yaml)
  | .removedTmp yaml messages (.ok _) => Accepts env format tmpPath messages (some yaml)
  | _ => True

/-- A call loads the temporary file while it holds contents that are rejected, or that are
accepted like the call's own. -/
def LoadsLikeOwn (files : Files F) (thread : Write F) (_ : Unit) : Prop :=
  ∀ yaml messages, thread = .wroteTmp yaml messages →
    Accepts env format tmpPath messages files.tmp → Accepts env format tmpPath messages (some yaml)

instance (messages : GateMessages) (file : Option F) :
    Decidable (Accepts env format tmpPath messages file) :=
  match load : loadConfig env format tmpPath file messages with
  | .ok config => isTrue ⟨config, load⟩
  | .error _ => isFalse (by simp [Accepts, load])

instance (files : Files F) (thread : Write F) (choice : Unit) :
    Decidable (LoadsLikeOwn env format tmpPath files thread choice) :=
  match thread with
  | .wroteTmp yaml messages =>
    decidable_of_iff
      (Accepts env format tmpPath messages files.tmp →
        Accepts env format tmpPath messages (some yaml))
      (by simp [LoadsLikeOwn])
  | .called _ _ | .loaded _ _ _ | .removedTmp _ _ _ | .done _ | .rejected _ =>
    isTrue (by simp [LoadsLikeOwn])

private theorem advance_passedOwn {files files' : Files F} {thread thread' : Write F}
    (accepted : WrittenAccepted env format tmpPath files)
    (passed : PassedOwn env format tmpPath thread)
    (own : LoadsLikeOwn env format tmpPath files thread ())
    (moved : advance env format tmpPath files thread () = some (files', thread')) :
    WrittenAccepted env format tmpPath files' ∧ PassedOwn env format tmpPath thread' := by
  cases thread with
  | called yaml messages =>
    cases moved
    exact ⟨accepted, trivial⟩
  | wroteTmp yaml messages =>
    cases load : loadConfig env format tmpPath files.tmp messages with
    | ok config =>
      simp only [advance, load] at moved
      cases moved
      exact ⟨accepted, own yaml messages rfl ⟨config, load⟩⟩
    | error e =>
      cases e <;> simp only [advance, load] at moved <;> cases moved <;> exact ⟨accepted, trivial⟩
  | loaded yaml messages result =>
    cases moved
    cases result with
    | ok config => exact ⟨accepted, passed⟩
    | error e => exact ⟨accepted, trivial⟩
  -- what is now written to the real file is the text that has passed
  | removedTmp yaml messages result =>
    cases result with
    | error e =>
      cases moved
      exact ⟨accepted, trivial⟩
    | ok config =>
      cases moved
      refine ⟨fun entry member => ?_, trivial⟩
      rcases List.mem_append.mp member with old | new
      · exact accepted entry old
      · rw [List.mem_singleton.mp new]
        exact passed
  | done config => cases moved
  | rejected e => cases moved

/-- In every interleaving of calls that each load the temporary file while it holds nothing
that is accepted in place of the call's own contents, only accepted contents are ever
written to the real file. -/
theorem written_accepted_of_loadsLikeOwn (real : Option F)
    (events : List (Event (Write F) Unit))
    (own : Guarded (Threads.step fresh (advance env format tmpPath))
      (MoveCond (LoadsLikeOwn env format tmpPath)) ⟨⟨real, none, []⟩, []⟩ events) :
    Always (Threads.step fresh (advance env format tmpPath))
      (fun pool => WrittenAccepted env format tmpPath pool.shared) ⟨⟨real, none, []⟩, []⟩
      events := by
  have stable := always_stable (WrittenAccepted env format tmpPath)
    (fun _ => PassedOwn env format tmpPath) ?_ ?_ ?_ ?_ own
  · exact stable.imp fun pool holds => holds.1
  · intro files thread _ ready
    cases thread <;> trivial
  · intro files thread choice files' thread' accepted passed own moved
    exact advance_passedOwn env format tmpPath accepted passed own moved
  · intro files thread choice files' thread' other _ _ _ _ passed
    exact passed
  · refine ⟨fun entry member => ?_, fun thread member => ?_⟩
    · cases member
    · cases member

/-- Two documents as texts: no routes, and one route without a backend. -/
def emptyYaml : Text := "routes: []\n".toList

def brokenYaml : Text := "routes:\n- host: broken.example.com\n".toList

def twoDocuments : Format Text where
  fromStr text :=
    if text = emptyYaml then .ok (.mapping [(.string "routes".toList, .sequence [])])
    else if text = brokenYaml then
      .ok (.mapping [(.string "routes".toList, .sequence
        [.mapping [(.string "host".toList, .string "broken.example.com".toList)]])])
    else .error "unexpected document".toList
  toString _ := .error "not serialised".toList

/-- Two calls overlap, and each loads what it wrote. -/
theorem written_accepted_apart :
    Always (Threads.step fresh (advance asciiExternals twoDocuments []))
      (fun pool => WrittenAccepted asciiExternals twoDocuments [] pool.shared)
      ⟨⟨none, none, []⟩, []⟩
      [.spawn (.called emptyYaml {}), .spawn (.called brokenYaml {}), .move 0 (), .move 0 (),
        .move 1 (), .move 1 (), .move 0 (), .move 1 (), .move 0 (), .move 1 ()] :=
  written_accepted_of_loadsLikeOwn asciiExternals twoDocuments [] none _ (by decide)

/-- A call validates what another one has put into the temporary file since. -/
theorem broken_config_written :
    ¬ ∀ (real : Option Text) (events : List (Event (Write Text) Unit))
        (last : Pool (Files Text) (Write Text)),
      run (Threads.step fresh (advance asciiExternals twoDocuments []))
        ⟨⟨real, none, []⟩, []⟩ events = some last →
      WrittenAccepted asciiExternals twoDocuments [] last.shared := by
  intro always
  have accepted := always none
    [.spawn (.called brokenYaml {}), .spawn (.called emptyYaml {}), .move 0 (), .move 1 (),
      .move 0 (), .move 0 (), .move 0 ()] _ rfl
  have rejected : ¬ Accepts asciiExternals twoDocuments [] {} (some brokenYaml) := by decide
  exact rejected (accepted (brokenYaml, {}) (List.mem_singleton.mpr rfl))

end Write

end MCGate.Config
