import MCGate.Config.HostCapture
import MCGate.Net.Api

/-!
# The route of a connection

`handle_connection` takes the first route of the live list that matches. The list is sorted
when the file is loaded, so this is the route of highest priority that matches, and among
several the one that the file has first. A match that slices past the end of the hostname
takes the connection with it.
-/
namespace MCGate.RouteSelection

open Config Yaml Api

section

variable (toLowercase : Text → Text) (hostname : Text)

/-- The first of the route's patterns that matches, in listed order. -/
def FirstMatch (route : Config.Route) (pattern : HostPattern) : Prop :=
  ∃ before after, route.hostPatterns = before ++ pattern :: after ∧
    pattern.Matches toLowercase hostname ∧ ∀ other ∈ before, ¬ other.Matches toLowercase hostname

def RouteMatches (route : Config.Route) : Prop :=
  ∃ pattern ∈ route.hostPatterns, pattern.Matches toLowercase hostname

end

/-- The number that a value is, or zero where it is no whole number. -/
def wholeNumber (value : Value) : Int :=
  match value.untag with
  | .number (.posInt n) => n.toNat
  | .number (.negInt n) => n.toInt
  | _ => 0

/-- The priority that the file gives an entry, zero by default. -/
def filePriority (entry : Value) : Int :=
  ((entry.asMapping.bind fun map => map.get "priority".toList).map wholeNumber).getD 0

def FitsI32 (n : Int) : Prop := -2147483648 ≤ n ∧ n ≤ 2147483647

section

variable (env : Externals) (messages : GateMessages) (hostname : Text)

/-- The entry is read as a route that matches. -/
def EntryMatches (entry : Value) : Prop :=
  ∃ route, routeOf env messages entry = some route ∧ RouteMatches env.toLowercase hostname route

/-- The route matches, no entry that does has a higher priority, and none before it in the file
has the same. -/
def Best (raw : List Value) (route : Config.Route) : Prop :=
  ∃ before entry after, raw = before ++ entry :: after ∧
    routeOf env messages entry = some route ∧ RouteMatches env.toLowercase hostname route ∧
    (∀ other ∈ before, EntryMatches env messages hostname other →
      filePriority other < filePriority entry) ∧
    ∀ other ∈ after, EntryMatches env messages hostname other →
      filePriority other ≤ filePriority entry

/-- A connection gets the best route of the file, with the captures of its first pattern that
matches, and no route exactly if none matches. -/
def SelectsBest (raw : List Value) (routes : List Config.Route) : Prop :=
  ∃ found, matchRoute env.toLowercase hostname 0 routes = some found ∧
    (found = none ↔ ∀ entry ∈ raw, ¬ EntryMatches env messages hostname entry) ∧
    ∀ index route captures, found = some (index, route, captures) →
      Best env messages hostname raw route ∧ routes[index]? = some route ∧
      ∃ pattern, FirstMatch env.toLowercase hostname route pattern ∧
        pattern.matchHost env.toLowercase hostname = some (some captures)

end

variable {env : Externals} {messages : GateMessages} {toLowercase : Text → Text} {hostname : Text}
  {route : Config.Route} {pattern : HostPattern}

/-! ### The two searches -/

private theorem exists_first {α : Type} {holds : α → Prop} {l : List α} (some : ∃ a ∈ l, holds a) :
    ∃ before a after, l = before ++ a :: after ∧ holds a ∧ ∀ b ∈ before, ¬ holds b := by
  induction l with
  | nil => simp at some
  | cons a l ih =>
    by_cases here : holds a
    · exact ⟨[], a, l, rfl, here, by simp⟩
    · obtain ⟨b, member, there⟩ := some
      rcases List.mem_cons.mp member with rfl | later
      · exact absurd there here
      · obtain ⟨before, c, after, rfl, first, others⟩ := ih ⟨b, later, there⟩
        exact ⟨a :: before, c, after, rfl, first, List.forall_mem_cons.mpr ⟨here, others⟩⟩

/-- Of two places in a list, one is before the other or they are the same. -/
theorem append_cons_cases {α : Type} {before before' after after' : List α} {a a' : α}
    (same : before ++ a :: after = before' ++ a' :: after') :
    a = a' ∨ a ∈ before' ∧ a' ∈ after ∨ a' ∈ before ∧ a ∈ after' := by
  rcases List.append_eq_append_iff.mp same with ⟨more, rfl, rest⟩ | ⟨more, rfl, rest⟩
  · cases more with
    | nil => exact .inl (List.cons.inj rest).1
    | cons b more =>
      obtain ⟨rfl, rfl⟩ := List.cons.inj rest
      exact .inr (.inl ⟨List.mem_append_right _ List.mem_cons_self,
        List.mem_append_right _ List.mem_cons_self⟩)
  · cases more with
    | nil => exact .inl (List.cons.inj rest).1.symm
    | cons b more =>
      obtain ⟨rfl, rfl⟩ := List.cons.inj rest
      exact .inr (.inr ⟨List.mem_append_right _ List.mem_cons_self,
        List.mem_append_right _ List.mem_cons_self⟩)

theorem FirstMatch.matches (first : FirstMatch toLowercase hostname route pattern) :
    RouteMatches toLowercase hostname route := by
  obtain ⟨before, after, split, matches_, -⟩ := first
  exact ⟨pattern, split ▸ List.mem_append_right before List.mem_cons_self, matches_⟩

theorem FirstMatch.unique {pattern' : HostPattern}
    (first : FirstMatch toLowercase hostname route pattern)
    (first' : FirstMatch toLowercase hostname route pattern') : pattern = pattern' := by
  obtain ⟨before, after, split, matches_, others⟩ := first
  obtain ⟨before', after', split', matches', others'⟩ := first'
  rcases append_cons_cases (split.symm.trans split') with same | ⟨earlier, -⟩ | ⟨earlier, -⟩
  · exact same
  · exact absurd matches_ (others' pattern earlier)
  · exact absurd matches' (others pattern' earlier)

theorem matchHost_of_not_matches (other : ¬ RouteMatches toLowercase hostname route) :
    route.matchHost toLowercase hostname = some none := by
  have none_ : ∀ pattern ∈ route.hostPatterns, ¬ pattern.Matches toLowercase hostname :=
    fun pattern member matches_ => other ⟨pattern, member, matches_⟩
  rw [Config.Route.matchHost]
  generalize route.hostPatterns = patterns at none_
  induction patterns with
  | nil => rfl
  | cons p patterns ih =>
    obtain ⟨here, later⟩ := List.forall_mem_cons.mp none_
    rw [Config.Route.matchHost.go, HostPattern.matchHost_of_not_matches here]
    exact ih later

/-- The first pattern that matches decides, whether it gives captures or panics. -/
theorem matchHost_of_first (first : FirstMatch toLowercase hostname route pattern) :
    route.matchHost toLowercase hostname = pattern.matchHost toLowercase hostname := by
  obtain ⟨before, after, split, matches_, others⟩ := first
  obtain ⟨parts, -, sliced⟩ := HostPattern.matchHost_of_matches matches_
  rw [Config.Route.matchHost, split, sliced]
  clear split
  induction before with
  | nil =>
    rw [List.nil_append, Config.Route.matchHost.go, sliced]
    generalize (HostPattern.partSpans 0 pattern.pattern parts).mapM
      (HostPattern.slice (trimEndMatches (· = '.') hostname)) = cuts
    cases cuts <;> rfl
  | cons p before ih =>
    obtain ⟨here, later⟩ := List.forall_mem_cons.mp others
    rw [List.cons_append, Config.Route.matchHost.go, HostPattern.matchHost_of_not_matches here]
    exact ih later

/-- Routes that do not match are passed over. -/
theorem matchRoute_append {before : List Config.Route}
    (others : ∀ other ∈ before, ¬ RouteMatches toLowercase hostname other) (index : Nat)
    (routes : List Config.Route) :
    matchRoute toLowercase hostname index (before ++ routes) =
      matchRoute toLowercase hostname (index + before.length) routes := by
  induction before generalizing index with
  | nil => rfl
  | cons other before ih =>
    obtain ⟨here, later⟩ := List.forall_mem_cons.mp others
    rw [List.cons_append, matchRoute, matchHost_of_not_matches here, List.length_cons,
      Nat.add_comm before.length, ← Nat.add_assoc]
    exact ih later (index + 1)

private theorem matchRoute_of_not_matches {routes : List Config.Route}
    (others : ∀ route ∈ routes, ¬ RouteMatches toLowercase hostname route) (index : Nat) :
    matchRoute toLowercase hostname index routes = some none := by
  have passed := matchRoute_append others index []
  rwa [List.append_nil] at passed

/-- The first route that matches decides. -/
theorem matchRoute_of_first {before after : List Config.Route} {captures : List Text}
    (others : ∀ other ∈ before, ¬ RouteMatches toLowercase hostname other)
    (found : route.matchHost toLowercase hostname = some (some captures)) (index : Nat) :
    matchRoute toLowercase hostname index (before ++ route :: after) =
      some (some (index + before.length, route, captures)) := by
  rw [matchRoute_append others, matchRoute, found]
  rfl

private theorem matchRoute_eq_none {before after : List Config.Route}
    (others : ∀ other ∈ before, ¬ RouteMatches toLowercase hostname other)
    (panics : route.matchHost toLowercase hostname = none) (index : Nat) :
    matchRoute toLowercase hostname index (before ++ route :: after) = none := by
  rw [matchRoute_append others, matchRoute, panics]
  rfl

/-! ### Priorities -/

/-- A number that fits survives the cast. -/
theorem toInt32_wholeNumber {value : Value} (fits : FitsI32 (wholeNumber value)) :
    ((value.asI64.map Int64.toInt32).getD 0).toInt = wholeNumber value := by
  have cast {n : Int64} (small : FitsI32 n.toInt) : n.toInt32.toInt = n.toInt := by
    obtain ⟨low, high⟩ := small
    rw [Int64.toInt_toInt32, Int.bmod_eq_of_le_mul_two (by omega) (by omega)]
  unfold wholeNumber at fits ⊢
  rw [Value.asI64]
  generalize value.untag = plain at fits ⊢
  cases plain with
  | number n =>
    cases n with
    | posInt n =>
      have high : (n.toNat : Int) ≤ 2147483647 := fits.2
      have small : n.toNat < 2 ^ 63 := by omega
      have same := Int64.toInt_ofNat_of_lt small
      dsimp only at fits ⊢
      rw [← same] at fits
      rw [Number.asI64, if_pos small, Option.map_some, Option.getD_some, cast fits, same]
    | negInt n => exact cast fits
    | float x => rfl
  | _ => rfl

private theorem getI32_of_fits {map : Mapping} {entry : Value} (read : entry.asMapping = some map)
    (fits : FitsI32 (filePriority entry)) :
    ((getI32 map "priority").getD 0).toInt = filePriority entry := by
  unfold filePriority at fits ⊢
  rw [read, Option.bind_some] at fits ⊢
  rw [getI32, getI64]
  cases found : map.get "priority".toList with
  | none => rfl
  | some value =>
    rw [found] at fits
    exact toInt32_wholeNumber fits

private theorem routeOf_priority {entry : Value} (read : routeOf env messages entry = some route)
    (fits : FitsI32 (filePriority entry)) : route.priority.toInt = filePriority entry := by
  have parsed := (@parseRouteEntry_eq_ok env messages 0 entry route).mpr read
  unfold parseRouteEntry at parsed
  split at parsed
  · cases parsed
  next map whole =>
    obtain ⟨hosts, -, parsed⟩ := bind_eq_ok.mp parsed
    obtain ⟨backends, -, parsed⟩ := bind_eq_ok.mp parsed
    obtain ⟨strategy, -, parsed⟩ := bind_eq_ok.mp parsed
    obtain ⟨ttl, -, parsed⟩ := bind_eq_ok.mp parsed
    obtain ⟨reconnect, -, parsed⟩ := bind_eq_ok.mp parsed
    obtain ⟨rendered, -, parsed⟩ := bind_eq_ok.mp parsed
    obtain ⟨metrics, -, parsed⟩ := bind_eq_ok.mp parsed
    cases parsed
    exact getI32_of_fits whole fits

/-! ### From the sorted list to the file -/

/-- Where a route stands in the file, the entries before and after it are those of the routes
before and after. -/
theorem file_split {raw : List Value} {before after : List Config.Route}
    (all : raw.map (routeOf env messages) = (before ++ route :: after).map some) :
    ∃ front entry back, raw = front ++ entry :: back ∧
      routeOf env messages entry = some route ∧
      front.map (routeOf env messages) = before.map some ∧
      back.map (routeOf env messages) = after.map some := by
  rw [List.map_append, List.map_cons] at all
  obtain ⟨front, rest, rfl, frontRead, restRead⟩ := List.map_eq_append_iff.mp all
  obtain ⟨entry, back, rfl, read, backRead⟩ := List.map_eq_cons_iff.mp restRead
  exact ⟨front, entry, back, rfl, read, frontRead, backRead⟩

private theorem route_mem {entries : List Value} {routes : List Config.Route} {entry : Value}
    (all : entries.map (routeOf env messages) = routes.map some) (member : entry ∈ entries)
    (read : routeOf env messages entry = some route) : route ∈ routes := by
  have there := List.mem_map_of_mem (f := routeOf env messages) member
  rw [all, read] at there
  obtain ⟨other, inside, same⟩ := List.mem_map.mp there
  exact Option.some.inj same ▸ inside

private theorem mem_routes {entries : List Value} {routes : List Config.Route}
    (all : entries.map (routeOf env messages) = routes.map some) (member : route ∈ routes) :
    ∃ entry ∈ entries, routeOf env messages entry = some route := by
  have there := List.mem_map_of_mem (f := some) member
  rw [← all] at there
  exact List.mem_map.mp there

open Classical in
/-- The first route of the sorted list that matches is the best one of the file. -/
theorem best_of_sorted {raw : List Value} {routes before after : List Config.Route}
    (all : raw.map (routeOf env messages) = routes.map some)
    (fits : ∀ entry ∈ raw, FitsI32 (filePriority entry))
    (sorted : sortRoutes routes = before ++ route :: after)
    (others : ∀ other ∈ before, ¬ RouteMatches env.toLowercase hostname other)
    (matches_ : RouteMatches env.toLowercase hostname route) :
    Best env messages hostname raw route := by
  -- sorting and leaving out what does not match can be done in either order
  have kept := StableSort.filter_insertionSort (r := byPriority)
    (fun other => decide (RouteMatches env.toLowercase hostname other)) routes
  rw [← sortRoutes, sorted, List.filter_append,
    List.filter_eq_nil_iff.mpr (by simpa using others), List.nil_append,
    List.filter_cons_of_pos (by simpa using matches_)] at kept
  obtain ⟨front, back, split, above, below⟩ := StableSort.split_of_insertionSort kept.symm
  obtain ⟨front', rest, rfl, frontKept, restKept⟩ := List.filter_eq_append_iff.mp split
  obtain ⟨skipped, back', rfl, out, -, backKept⟩ := List.filter_eq_cons_iff.mp restKept
  rw [← List.append_assoc] at all
  obtain ⟨ahead, entry, behind, rfl, read, aheadRead, behindRead⟩ := file_split all
  have priority {other : Value} {otherRoute : Config.Route}
      (member : other ∈ ahead ++ entry :: behind)
      (otherRead : routeOf env messages other = some otherRoute) :
      otherRoute.priority.toInt = filePriority other :=
    routeOf_priority otherRead (fits other member)
  have own := priority (List.mem_append_right _ List.mem_cons_self) read
  refine ⟨ahead, entry, behind, rfl, read, matches_, ?_, ?_⟩
  -- the sort puts a route in front of the earlier ones only where its priority is higher
  · rintro other member ⟨otherRoute, otherRead, otherMatches⟩
    have inFront : otherRoute ∈ front := by
      rw [← frontKept, List.mem_filter]
      refine ⟨?_, by simpa using otherMatches⟩
      rcases List.mem_append.mp (route_mem aheadRead member otherRead) with here | there
      · exact here
      · exact absurd otherMatches (by simpa using out otherRoute there)
    have higher := above otherRoute inFront
    rw [← own, ← priority (List.mem_append_left _ member) otherRead]
    exact Int.lt_of_not_ge higher
  · rintro other member ⟨otherRoute, otherRead, otherMatches⟩
    have inBack : otherRoute ∈ back := by
      rw [← backKept, List.mem_filter]
      exact ⟨route_mem behindRead member otherRead, by simpa using otherMatches⟩
    rw [← own, ← priority (List.mem_append_right _ (List.mem_cons_of_mem _ member)) otherRead]
    exact below otherRoute inBack

/-- There is one best route. -/
theorem Best.unique {raw : List Value} {route' : Config.Route}
    (best : Best env messages hostname raw route) (best' : Best env messages hostname raw route') :
    route = route' := by
  obtain ⟨before, entry, after, split, read, matches_, above, below⟩ := best
  obtain ⟨before', entry', after', split', read', matches', above', below'⟩ := best'
  -- of two entries that match, the later one would have a higher priority and not a higher one
  rcases append_cons_cases (split.symm.trans split') with same | ⟨earlier, later⟩ | ⟨earlier, later⟩
  · rw [same] at read
    exact Option.some.inj (read.symm.trans read')
  · have lower := above' entry earlier ⟨route, read, matches_⟩
    have higher := below entry' later ⟨route', read', matches'⟩
    omega
  · have lower := above entry' earlier ⟨route', read', matches'⟩
    have higher := below' entry later ⟨route, read, matches_⟩
    omega

/-! ### The selection -/

/-- A connection gets the best route of the file exactly if the match that decides for it does
not slice past the end of the hostname. -/
theorem selectsBest_iff {root : Value} {config : GateConfig}
    (loaded : loadValue env root messages = .ok config)
    (fits : ∀ entry ∈ rawRoutes (configSection root), FitsI32 (filePriority entry))
    (hostname : Text) :
    SelectsBest env messages hostname (rawRoutes (configSection root)) config.routes ↔
      ∀ route pattern, Best env messages hostname (rawRoutes (configSection root)) route →
        FirstMatch env.toLowercase hostname route pattern →
          pattern.Sliceable env.toLowercase hostname := by
  obtain ⟨all, live⟩ := fileRoutes_eq env loaded
  have perm := List.perm_insertionSort byPriority (fileRoutes env messages root)
  rw [← sortRoutes, ← live] at perm
  by_cases some_ : ∃ route ∈ config.routes, RouteMatches env.toLowercase hostname route
  · obtain ⟨before, route, after, split, matches_, others⟩ := exists_first some_
    have best := best_of_sorted all fits (live ▸ split) others matches_
    obtain ⟨front, pattern, back, listed, patternMatches, skipped⟩ := exists_first matches_
    have first : FirstMatch env.toLowercase hostname route pattern :=
      ⟨front, back, listed, patternMatches, skipped⟩
    have decides := matchHost_of_first first
    constructor
    -- a slice past the end would be a panic, and there is none
    · rintro ⟨found, selected, -, -⟩ route' pattern' best' first'
      obtain rfl := best.unique best'
      obtain rfl := first.unique first'
      by_contra past
      have panics := HostPattern.matchHost_eq_none patternMatches past
      rw [split, matchRoute_eq_none others (decides.trans panics)] at selected
      cases selected
    · intro sliceable
      obtain ⟨captures, cut⟩ := HostPattern.matchHost_eq_some patternMatches
        (sliceable route pattern best first)
      refine ⟨_, by rw [split, matchRoute_of_first others (decides.trans cut)], ?_, ?_⟩
      · apply iff_of_false (Option.some_ne_none _)
        intro none_
        obtain ⟨entry, member, read⟩ := mem_routes all
          (perm.subset (split ▸ List.mem_append_right before List.mem_cons_self))
        exact none_ entry member ⟨route, read, matches_⟩
      · rintro index _ _ ⟨⟩
        rw [Nat.zero_add]
        refine ⟨best, ?_, pattern, first, cut⟩
        rw [split, List.getElem?_append_right (Nat.le_refl _), Nat.sub_self]
        rfl
  -- without a match nothing is sliced
  · have none_ : ∀ route ∈ config.routes, ¬ RouteMatches env.toLowercase hostname route :=
      fun route member matches_ => some_ ⟨route, member, matches_⟩
    apply iff_of_true
    · refine ⟨none, matchRoute_of_not_matches none_ 0, ?_, ?_⟩
      · apply iff_of_true rfl
        rintro entry member ⟨route, read, matches_⟩
        exact none_ route (perm.symm.subset (route_mem all member read)) matches_
      · rintro index route captures ⟨⟩
    · rintro route pattern ⟨before, entry, after, split, read, matches_, -⟩
      have member : entry ∈ rawRoutes (configSection root) :=
        split ▸ List.mem_append_right before List.mem_cons_self
      exact absurd matches_ (none_ route (perm.symm.subset (route_mem all member read)))

private theorem loadValue_eq {root : Value}
    (loads : (loadValue env root messages).toOption.isSome) :
    loadValue env root messages = .ok ((loadValue env root messages).toOption.getD {}) := by
  cases loaded : loadValue env root messages with
  | error e =>
    rw [loaded] at loads
    cases loads
  | ok config => rfl

/-- Three routes for one host, the last two with the same priority. -/
def overlapping : Value :=
  document [routeEntry "*.example.com" "10.0.0.1" 0, routeEntry "*lobby.example.com" "10.0.0.2" 5,
    routeEntry "eu.*" "10.0.0.3" 5]

theorem selectsBest_iff_overlapping :
    ∃ config, loadValue asciiExternals overlapping silentMessages = .ok config ∧
      (SelectsBest asciiExternals silentMessages "EU.lobby.example.com".toList
          (rawRoutes (configSection overlapping)) config.routes ↔
        ∀ route pattern, Best asciiExternals silentMessages "EU.lobby.example.com".toList
            (rawRoutes (configSection overlapping)) route →
          FirstMatch asciiExternals.toLowercase "EU.lobby.example.com".toList route pattern →
            pattern.Sliceable asciiExternals.toLowercase "EU.lobby.example.com".toList) := by
  have loaded := @loadValue_eq asciiExternals silentMessages overlapping (by decide)
  refine ⟨_, loaded, selectsBest_iff loaded ?_ _⟩
  intro entry member
  have three : rawRoutes (configSection overlapping) =
      [routeEntry "*.example.com" "10.0.0.1" 0, routeEntry "*lobby.example.com" "10.0.0.2" 5,
        routeEntry "eu.*" "10.0.0.3" 5] := rfl
  rw [three] at member
  simp only [List.mem_cons, List.not_mem_nil, or_false] at member
  rcases member with rfl | rfl | rfl <;> exact ⟨by decide, by decide⟩

/-- As `asciiExternals`, for a hostname with a dotted capital. -/
def dottedExternals : Externals :=
  { asciiExternals with toLowercase := dottedLowercase.toLowercase }

/-- The one route of the file takes every host, and a connection for this one gets none. -/
theorem dottedHost_not_selected :
    ∃ config,
      loadValue dottedExternals (document [routeEntry "*" "10.0.0.1" 0]) silentMessages =
          .ok config ∧
        (∀ entry ∈ rawRoutes (configSection (document [routeEntry "*" "10.0.0.1" 0])),
          FitsI32 (filePriority entry)) ∧
        ¬ SelectsBest dottedExternals silentMessages ['\u0130']
          (rawRoutes (configSection (document [routeEntry "*" "10.0.0.1" 0]))) config.routes := by
  refine ⟨_, loadValue_eq (by decide), ?_, ?_⟩
  · intro entry member
    obtain rfl := List.mem_singleton.mp member
    exact ⟨by decide, by decide⟩
  rintro ⟨found, selected, -⟩
  have panics : matchRoute dottedExternals.toLowercase ['\u0130'] 0
      ((loadValue dottedExternals (document [routeEntry "*" "10.0.0.1" 0])
        silentMessages).toOption.getD {}).routes = none := by decide +kernel
  rw [panics] at selected
  cases selected

end MCGate.RouteSelection
