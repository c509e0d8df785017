import UniEventHttp.UriReference
import UniEventHttp.ClientRedirect

namespace UniEventHttp.ClientSide

/-!
# The target of a redirect

`analyze_request` fills in what the `Location` lacks: the scheme, and the host with
the explicit port.  It keeps the path and the query of the `Location` as they are,
which is right where nothing else had to be taken from the previous uri.
-/

/-! ## URIs as references -/

/-- User information, host and explicit port. -/
structure Authority where
  userInfo : String
  host : String
  explicitPort : Nat
  deriving DecidableEq

/-- The authority, if any part of it is there. -/
def Uri.authority (uri : Uri) : Option Authority :=
  if uri.userInfo = "" ∧ uri.host = "" ∧ uri.explicitPort = 0 then none
  else some ⟨uri.userInfo, uri.host, uri.explicitPort⟩

/-- A component that may be absent. -/
def component (value : String) : Option String :=
  if value = "" then none else some value

/-- The components by which the standard resolves references. -/
def Uri.reference (uri : Uri) : UriReference.Reference Authority where
  scheme := component uri.scheme
  authority := uri.authority
  path := uri.path.toList
  query := component uri.query

theorem component_eq_none {value : String} : component value = none ↔ value = "" := by
  unfold component
  split <;> simp_all

theorem Uri.authority_injective
    {one two : Uri}
    (same : one.authority = two.authority) :
    one.userInfo = two.userInfo ∧
      one.host = two.host ∧
      one.explicitPort = two.explicitPort := by
  unfold Uri.authority at same
  split at same <;> split at same <;> simp_all

theorem Uri.authority_of_host
    {uri : Uri}
    (hasHost : uri.host ≠ "") :
    uri.authority = some ⟨uri.userInfo, uri.host, uri.explicitPort⟩ := by
  simp [Uri.authority, hasHost]

theorem Uri.authority_eq_none {uri : Uri} :
    uri.authority = none ↔
      uri.userInfo = "" ∧ uri.host = "" ∧ uri.explicitPort = 0 := by
  unfold Uri.authority
  split <;> simp_all

/-- A uri with a host has a path that is empty or begins with a slash. -/
def Uri.WellFormed (uri : Uri) : Prop :=
  uri.host ≠ "" → UriReference.Rooted uri.path.toList

/-- A uri that a request has been sent to. -/
structure Uri.Requested (uri : Uri) : Prop where
  /-- It has been given one, if it had none. -/
  scheme : uri.scheme ≠ ""
  /-- It has been checked. -/
  host : uri.host ≠ ""
  wellFormed : uri.WellFormed

/-! ## The property -/

/-- The next uri is the resolution of the `Location` against the previous one. -/
def Resolves (previous location next : Uri) : Prop :=
  next.reference = UriReference.resolve previous.reference location.reference

/--
Nothing but the scheme is taken from the previous uri, or scheme and authority
for an absolute path; and no dot segments are to be removed.
-/
def ResolvesPlainly (previous location : Uri) : Prop :=
  if location.host ≠ "" then
    UriReference.Dotless location.path.toList
  else
    location.scheme = "" ∧
      location.userInfo = "" ∧
      location.explicitPort = 0 ∧
      previous.userInfo = "" ∧
      if location.path = "" then
        previous.path = "" ∧ (location.query ≠ "" ∨ previous.query = "")
      else
        location.path.toList.head? = some '/' ∧
          UriReference.Dotless location.path.toList

instance (previous location : Uri) : Decidable (ResolvesPlainly previous location) := by
  unfold ResolvesPlainly
  infer_instance

theorem toList_eq_nil {value : String} : value.toList = [] ↔ value = "" := by
  rw [← String.toList_inj]
  rfl

/-- A `Location` with a host. -/
theorem resolves_of_host
    {previous location : Uri}
    (wellFormed : location.WellFormed)
    (hasHost : location.host ≠ "") :
    Resolves previous location (redirectUri location previous) ↔
      UriReference.Dotless location.path.toList := by
  have authority := Uri.authority_of_host hasHost
  rw [← UriReference.removeDotSegments_eq_self (wellFormed hasHost)]
  by_cases hasScheme : location.scheme = ""
  · have isNext :
        redirectUri location previous =
          { location with scheme := previous.scheme } := by
      simp [redirectUri, hasScheme, hasHost]
    have nextAuthority :
        ({ location with scheme := previous.scheme } : Uri).authority =
          some ⟨location.userInfo, location.host, location.explicitPort⟩ :=
      Uri.authority_of_host hasHost
    rw [isNext]
    simp [Resolves, UriReference.resolve, Uri.reference, nextAuthority,
      component_eq_none.mpr hasScheme, authority, eq_comm]
  · have isNext : redirectUri location previous = location := by
      simp [redirectUri, hasScheme, hasHost]
    have given : (component location.scheme).isSome = true := by
      simp [component, hasScheme]
    rw [isNext]
    simp [Resolves, UriReference.resolve, Uri.reference, given, eq_comm]

/-- A `Location` without a host gets the one of the previous uri. -/
theorem redirectUri_host
    (previous : Uri)
    {location : Uri}
    (noHost : location.host = "") :
    (redirectUri location previous).host = previous.host ∧
      (redirectUri location previous).path = location.path ∧
      (redirectUri location previous).query = location.query ∧
      (redirectUri location previous).userInfo = location.userInfo := by
  by_cases noScheme : location.scheme = "" <;>
    simp [redirectUri, noScheme, noHost]

/-- A `Location` with a scheme or an authority, but without a host. -/
theorem not_resolves_of_partial
    {previous location : Uri}
    (hasHost : previous.host ≠ "")
    (noHost : location.host = "")
    (given :
      location.scheme ≠ "" ∨ location.userInfo ≠ "" ∨ location.explicitPort ≠ 0) :
    ¬ Resolves previous location (redirectUri location previous) := by
  intro resolves
  obtain ⟨host, _, _, _⟩ := redirectUri_host previous noHost
  have kept :
      (UriReference.resolve previous.reference location.reference).authority =
        location.authority := by
    by_cases scheme : location.scheme = ""
    · have authority : location.authority.isSome = true := by
        rw [Option.isSome_iff_ne_none]
        intro none
        obtain ⟨noInfo, _, noPort⟩ := Uri.authority_eq_none.mp none
        simp [scheme, noInfo, noPort] at given
      simp [UriReference.resolve, Uri.reference, component, scheme, authority]
    · simp [UriReference.resolve, Uri.reference, component, scheme]
  have same := congrArg UriReference.Reference.authority resolves
  rw [kept] at same
  have sameHost := (Uri.authority_injective same).2.1
  rw [host, noHost] at sameHost
  exact hasHost sameHost

/-- A `Location` of a path or a query only. -/
theorem resolves_of_path
    {previous location : Uri}
    (requested : previous.Requested)
    (noScheme : location.scheme = "")
    (noInfo : location.userInfo = "")
    (noHost : location.host = "")
    (noPort : location.explicitPort = 0) :
    Resolves previous location (redirectUri location previous) ↔
      previous.userInfo = "" ∧
        if location.path = "" then
          previous.path = "" ∧ (location.query ≠ "" ∨ previous.query = "")
        else
          location.path.toList.head? = some '/' ∧
            UriReference.Dotless location.path.toList := by
  have isNext :
      redirectUri location previous =
        { location with
          scheme := previous.scheme
          host := previous.host
          explicitPort := previous.explicitPort } := by
    unfold redirectUri
    simp only [noScheme, ↓reduceIte, noHost, noPort]
    split <;> simp_all
  have nextAuthority :
      ({ location with
          scheme := previous.scheme
          host := previous.host
          explicitPort := previous.explicitPort } : Uri).authority =
        some ⟨"", previous.host, previous.explicitPort⟩ := by
    simp [Uri.authority, noInfo, requested.host]
  have nextReference :
      (redirectUri location previous).reference =
        { scheme := component previous.scheme
          authority := some ⟨"", previous.host, previous.explicitPort⟩
          path := location.path.toList
          query := component location.query } := by
    rw [isNext]
    simp [Uri.reference, nextAuthority]
  have authority := Uri.authority_of_host requested.host
  have noAuthority : location.authority = none :=
    Uri.authority_eq_none.mpr ⟨noInfo, noHost, noPort⟩
  have sameAuthority :
      some (⟨"", previous.host, previous.explicitPort⟩ : Authority) =
          previous.authority ↔
        previous.userInfo = "" := by
    rw [authority, Option.some.injEq, Authority.mk.injEq]
    exact ⟨fun same => same.1.symm, fun noInfo => ⟨noInfo.symm, rfl, rfl⟩⟩
  unfold Resolves
  rw [nextReference]
  by_cases noPath : location.path = ""
  · have empty : location.path.toList = [] := toList_eq_nil.mpr noPath
    have samePath : [] = previous.path.toList ↔ previous.path = "" :=
      eq_comm.trans toList_eq_nil
    have sameQuery :
        component location.query =
            (component location.query).or (component previous.query) ↔
          location.query ≠ "" ∨ previous.query = "" := by
      by_cases noQuery : location.query = "" <;>
        by_cases noneBefore : previous.query = "" <;>
          simp [component, noQuery, noneBefore]
    rw [if_pos noPath]
    simp only [UriReference.resolve, Uri.reference, noAuthority, empty,
      component_eq_none.mpr noScheme, Option.isSome_none, Bool.false_eq_true,
      ↓reduceIte, UriReference.Reference.mk.injEq, true_and, samePath,
      sameAuthority, sameQuery]
  · have notEmpty : location.path.toList ≠ [] := fun empty =>
      noPath (toList_eq_nil.mp empty)
    simp only [UriReference.resolve, Uri.reference, noAuthority, notEmpty,
      component_eq_none.mpr noScheme, Option.isSome_none, Bool.false_eq_true,
      ↓reduceIte, UriReference.Reference.mk.injEq, true_and, and_true, noPath,
      sameAuthority]
    refine and_congr_right fun _ => ?_
    split
    · rename_i absolute
      rw [eq_comm, UriReference.removeDotSegments_eq_self (Or.inr absolute)]
      simp only [absolute, true_and]
    · rename_i notAbsolute
      simp only [notAbsolute, false_and, iff_false]
      intro same
      obtain ⟨rest, merged⟩ :=
        UriReference.merge_rooted previous.reference
          (by simp [Uri.reference, authority])
          (requested.wellFormed requested.host) location.path.toList
      obtain ⟨segments, _, _, shape⟩ :=
        UriReference.removeDotSegments_rooted rest
      have isMerged :
          location.path.toList =
            UriReference.removeDotSegments
              (UriReference.merge previous.reference location.path.toList) :=
        same
      rw [merged, shape] at isMerged
      rw [isMerged] at notAbsolute
      exact notAbsolute rfl

/-- The code resolves a `Location` rightly exactly where that is plain. -/
theorem resolves_iff
    {previous location : Uri}
    (requested : previous.Requested)
    (wellFormed : location.WellFormed) :
    Resolves previous location (redirectUri location previous) ↔
      ResolvesPlainly previous location := by
  unfold ResolvesPlainly
  split
  · rename_i hasHost
    exact resolves_of_host wellFormed hasHost
  · rename_i isHost
    have noHost : location.host = "" := by simpa using isHost
    by_cases given :
        location.scheme ≠ "" ∨ location.userInfo ≠ "" ∨
          location.explicitPort ≠ 0
    · have never := not_resolves_of_partial requested.host noHost given
      simp only [never, false_iff]
      rintro ⟨noScheme, noInfo, noPort, _⟩
      simp [noScheme, noInfo, noPort] at given
    · simp only [not_or, ne_eq, Decidable.not_not] at given
      obtain ⟨noScheme, noInfo, noPort⟩ := given
      rw [resolves_of_path requested noScheme noInfo noHost noPort]
      simp [noScheme, noInfo, noPort]

/-! ## Chains -/

theorem redirectUri_scheme
    {previous : Uri}
    (given : previous.scheme ≠ "")
    (location : Uri) :
    (redirectUri location previous).scheme ≠ "" := by
  by_cases noScheme : location.scheme = "" <;>
    by_cases noHost : location.host = "" <;>
      simp [redirectUri, noScheme, noHost, given]

/-- `Client::request` has nothing to add to the uri of a redirected request. -/
theorem redirectUri_withScheme
    {previous : Uri}
    (given : previous.scheme ≠ "")
    (location : Uri) :
    (redirectUri location previous).withScheme = redirectUri location previous := by
  simp [Uri.withScheme, redirectUri_scheme given location]

/-- The next request is sent to a uri of the right form. -/
theorem ResolvesPlainly.requested
    {previous location : Uri}
    (plainly : ResolvesPlainly previous location)
    (requested : previous.Requested)
    (wellFormed : location.WellFormed) :
    (redirectUri location previous).Requested := by
  have scheme := redirectUri_scheme requested.scheme location
  unfold ResolvesPlainly at plainly
  by_cases noHost : location.host = ""
  · obtain ⟨host, path, _, _⟩ :=
      redirectUri_host previous noHost
    simp only [noHost, ne_eq, not_true_eq_false, ↓reduceIte] at plainly
    refine ⟨scheme, by rw [host]; exact requested.host, fun _ => ?_⟩
    rw [path]
    by_cases noPath : location.path = ""
    · exact Or.inl (toList_eq_nil.mpr noPath)
    · simp only [noPath, ↓reduceIte] at plainly
      exact Or.inr plainly.2.2.2.2.1
  · have host : (redirectUri location previous).host = location.host := by
      by_cases noScheme : location.scheme = "" <;>
        simp [redirectUri, noScheme, noHost]
    have path : (redirectUri location previous).path = location.path := by
      by_cases noScheme : location.scheme = "" <;>
        simp [redirectUri, noScheme, noHost]
    refine ⟨scheme, by rw [host]; exact noHost, fun _ => ?_⟩
    rw [path]
    exact wellFormed noHost

namespace World

/--
Redirects of a request, from the uri that it was sent to, over these locations, to
the uri that it is sent to then; the application leaves its uri alone.
-/
inductive Redirections (r : Nat) : Uri → List Uri → Uri → Prop where
  | none {uri : Uri} : Redirections r uri [] uri
  | next {w analyzed : World} {c : Nat} {response : Response}
      {context : RedirectContext} {frames : List Frame} {location : Uri}
      {rest : List Uri} {last : Uri} :
      w.analyzeRequest c =
        .next analyzed (.fire (.redirectEvent c r response context) :: frames) →
      response.location = some location →
      Redirections r (analyzed.requests r).target.withScheme rest last →
      Redirections r (w.requests r).target (location :: rest) last

/-- Every redirect of a chain leads to the resolution of its location. -/
def ChainResolves (r : Nat) (first : Uri) (locations : List Uri) : Prop :=
  ∀ before location after previous next,
    locations = before ++ location :: after →
    Redirections r first before previous →
    Redirections r previous [location] next →
    Resolves previous location next

/-- Every redirect of a chain is one that is resolved plainly. -/
def PlainChain : Uri → List Uri → Prop
  | _, [] => True
  | previous, location :: rest =>
      ResolvesPlainly previous location ∧
        PlainChain (redirectUri location previous).withScheme rest

/-- A client that has received a redirect to the location. -/
def sentAway (r : Nat) (previous location : Uri) : World :=
  { initial {} with
    requests := fun _ => { uri := some previous }
    clients := fun _ =>
      { request := some r
        response := some { code := 302, location := some location } } }

/-- One redirect leads to what `redirectUri` says. -/
theorem redirections_cons
    {r : Nat}
    {first location last : Uri}
    {rest : List Uri} :
    Redirections r first (location :: rest) last ↔
      Redirections r (redirectUri location first).withScheme rest last := by
  constructor
  · intro redirections
    cases redirections with
    | next executed located further =>
        obtain ⟨_, _, target, redirects⟩ := analyzeRequest_redirects executed
        have sameLocation : target = _ :=
          Option.some.inj (redirects.located.symm.trans located)
        subst sameLocation
        rw [redirects.shape] at further
        simpa [setClient, setRequest, Request.target, Request.redirectedTo,
          counted] using further
  · intro further
    refine .next (w := sentAway r first location) (c := 0) rfl rfl ?_
    simpa [sentAway, setClient, setRequest, Request.target,
      Request.redirectedTo] using further

/-- A chain of redirects is a chain of `redirectUri`. -/
theorem redirections_iff
    {r : Nat}
    {first last : Uri}
    {locations : List Uri} :
    Redirections r first locations last ↔
      last =
        locations.foldl
          (fun previous location => (redirectUri location previous).withScheme)
          first := by
  induction locations generalizing first with
  | nil =>
      constructor
      · intro redirections
        cases redirections
        rfl
      · rintro rfl
        exact .none
  | cons location rest inductionHypothesis =>
      rw [redirections_cons, inductionHypothesis, List.foldl_cons]

/-- The first redirect of a chain, and the others. -/
theorem chainResolves_cons
    {r : Nat}
    {first location : Uri}
    {rest : List Uri} :
    ChainResolves r first (location :: rest) ↔
      Resolves first location (redirectUri location first).withScheme ∧
        ChainResolves r (redirectUri location first).withScheme rest := by
  constructor
  · intro resolves
    refine ⟨?_, ?_⟩
    · refine resolves [] location rest first _ rfl .none ?_
      exact redirections_iff.mpr rfl
    · intro before other after previous next shape reached redirected
      refine resolves (location :: before) other after previous next
        (by rw [shape]; rfl) ?_ redirected
      exact redirections_cons.mpr reached
  · rintro ⟨one, others⟩ before other after previous next shape reached redirected
    cases before with
    | nil =>
        simp only [List.nil_append, List.cons.injEq] at shape
        obtain ⟨rfl, rfl⟩ := shape
        cases reached
        rw [redirections_iff.mp redirected]
        exact one
    | cons earlier before =>
        simp only [List.cons_append, List.cons.injEq] at shape
        obtain ⟨rfl, shape⟩ := shape
        exact others before other after previous next shape
          (redirections_cons.mp reached) redirected

/-- Every redirect of a chain is resolved rightly exactly if each of them is plain. -/
theorem chainResolves_iff
    {r : Nat}
    {first : Uri}
    {locations : List Uri}
    (requested : first.Requested)
    (wellFormed : ∀ location ∈ locations, location.WellFormed) :
    ChainResolves r first locations ↔ PlainChain first locations := by
  induction locations generalizing first with
  | nil =>
      refine ⟨fun _ => trivial, fun _ => ?_⟩
      intro before location after previous next shape
      simp at shape
  | cons location rest inductionHypothesis =>
      have here := wellFormed location List.mem_cons_self
      have later := fun other member =>
        wellFormed other (List.mem_cons_of_mem location member)
      rw [chainResolves_cons,
        redirectUri_withScheme requested.scheme, PlainChain,
        redirectUri_withScheme requested.scheme,
        resolves_iff requested here]
      refine and_congr_right fun plainly => ?_
      exact inductionHypothesis (plainly.requested requested here) later

/-- `http://a/b/c` -/
def startUri : Uri :=
  { scheme := "http", host := "a", path := "/b/c" }

theorem requested_startUri : startUri.Requested :=
  ⟨by decide, by decide, fun _ => by unfold UriReference.Rooted; decide⟩

/-- An absolute path, and then another host. -/
theorem chainResolves_absolute :
    ChainResolves 0 startUri
      [{ path := "/d", query := "x" }, { host := "e", explicitPort := 81 }] :=
  (chainResolves_iff requested_startUri (by
    intro location member
    simp only [List.mem_cons, List.not_mem_nil, or_false] at member
    rcases member with rfl | rfl <;>
      exact fun _ => by unfold UriReference.Rooted; decide)).mpr
    (by simp only [PlainChain]; decide)

/-- A relative path is not merged with the path of the previous uri. -/
theorem relative_not_chainResolves :
    ¬ ChainResolves 0 startUri [{ path := "d" }] := by
  intro resolves
  have wrong :=
    resolves [] { path := "d" } [] startUri _ rfl .none
      (redirections_iff.mpr rfl)
  have samePath := congrArg UriReference.Reference.path wrong
  revert samePath
  decide

end World

end UniEventHttp.ClientSide
