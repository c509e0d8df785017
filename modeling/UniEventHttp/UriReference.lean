import Mathlib.Data.List.Basic

namespace UriReference

/-!
# Reference resolution

The resolution of a URI reference against a base URI, by section 5.2 of the URI
standard.  A component that is not defined is `none`, and a path is a list of
characters, which may be empty.  The fragment of the target is that of the
reference and is left out.
-/

/-- The components of a URI reference. -/
structure Reference (Authority : Type) where
  scheme : Option String
  authority : Option Authority
  path : List Char
  query : Option String
  deriving DecidableEq

/-- The complete path segments `.` and `..`. -/
def isDot (segment : List Char) : Bool :=
  segment == ['.'] || segment == ['.', '.']

/-- The path has no complete segment `.` or `..`. -/
def Dotless (path : List Char) : Prop :=
  ∀ segment ∈ path.splitOn '/', isDot segment = false

instance (path : List Char) : Decidable (Dotless path) :=
  inferInstanceAs (Decidable (∀ _ ∈ _, _))

/-- The path is empty or begins with a slash. -/
def Rooted (path : List Char) : Prop :=
  path = [] ∨ path.head? = some '/'

instance (path : List Char) : Decidable (Rooted path) :=
  inferInstanceAs (Decidable (_ ∨ _))

/--
Steps B, C and E of section 5.2.4: the segments that follow a slash each, and the
output buffer by what has been moved to it at a time.
-/
def removeDots (output : List (List Char)) : List (List Char) → List (List Char)
  | [] => output
  | [last] =>
      if last = ['.'] then output ++ [['/']]
      else if last = ['.', '.'] then output.dropLast ++ [['/']]
      else output ++ ['/' :: last]
  | segment :: next :: rest =>
      if segment = ['.'] then removeDots output (next :: rest)
      else if segment = ['.', '.'] then removeDots output.dropLast (next :: rest)
      else removeDots (output ++ ['/' :: segment]) (next :: rest)

/-- Steps A and D, before the first slash; then the other steps. -/
def removeDotsFrom : List (List Char) → List Char
  | [] => []
  | [only] => if isDot only then [] else only
  | first :: next :: rest =>
      if first = [] then (removeDots [] (next :: rest)).flatten
      else if isDot first then removeDotsFrom (next :: rest)
      else (removeDots [first] (next :: rest)).flatten

/-- `remove_dot_segments` of section 5.2.4. -/
def removeDotSegments (path : List Char) : List Char :=
  removeDotsFrom (path.splitOn '/')

/-- The path up to its last slash. -/
def directory (path : List Char) : List Char :=
  (path.reverse.dropWhile (· != '/')).reverse

/-- `merge` of section 5.2.3. -/
def merge {Authority : Type} (base : Reference Authority) (path : List Char) :
    List Char :=
  if base.authority.isSome ∧ base.path = [] then '/' :: path
  else directory base.path ++ path

/-- The target of a reference, by section 5.2.2. -/
def resolve
    {Authority : Type}
    (base reference : Reference Authority) :
    Reference Authority :=
  if reference.scheme.isSome then
    { reference with path := removeDotSegments reference.path }
  else if reference.authority.isSome then
    { reference with
      scheme := base.scheme
      path := removeDotSegments reference.path }
  else if reference.path = [] then
    { scheme := base.scheme
      authority := base.authority
      path := base.path
      query := reference.query.or base.query }
  else
    { scheme := base.scheme
      authority := base.authority
      path :=
        if reference.path.head? = some '/' then
          removeDotSegments reference.path
        else
          removeDotSegments (merge base reference.path)
      query := reference.query }

/-- The first example of section 5.2.4. -/
example :
    removeDotSegments "/a/b/c/./../../g".toList = "/a/g".toList := by
  decide

/-! ## Removing dot segments -/

/-- The output has segments without dots, each after its slash. -/
def Clean (output : List (List Char)) : Prop :=
  ∃ segments : List (List Char),
    output = segments.map (List.cons '/') ∧
      ∀ segment ∈ segments, isDot segment = false ∧ '/' ∉ segment

theorem Clean.nil : Clean [] :=
  ⟨[], rfl, by simp⟩

theorem Clean.dropLast
    {output : List (List Char)}
    (clean : Clean output) :
    Clean output.dropLast := by
  obtain ⟨segments, rfl, each⟩ := clean
  refine ⟨segments.dropLast, by simp [List.map_dropLast], ?_⟩
  exact fun segment member =>
    each segment ((List.dropLast_sublist _).subset member)

theorem Clean.snoc
    {output : List (List Char)}
    {segment : List Char}
    (clean : Clean output)
    (notDot : isDot segment = false)
    (noSlash : '/' ∉ segment) :
    Clean (output ++ ['/' :: segment]) := by
  obtain ⟨segments, rfl, each⟩ := clean
  refine ⟨segments ++ [segment], by simp, ?_⟩
  intro other member
  rcases List.mem_append.mp member with old | new
  · exact each other old
  · rw [List.mem_singleton.mp new]
    exact ⟨notDot, noSlash⟩

theorem isDot_eq_false
    {segment : List Char}
    (notDot : segment ≠ ['.'])
    (notDots : segment ≠ ['.', '.']) :
    isDot segment = false := by
  simp [isDot, notDot, notDots]

/-- What is removed leaves segments without dots, and at least one. -/
theorem clean_removeDots
    {output segments : List (List Char)}
    (clean : Clean output)
    (noSlash : ∀ segment ∈ segments, '/' ∉ segment)
    (some : segments ≠ []) :
    Clean (removeDots output segments) ∧ removeDots output segments ≠ [] := by
  induction output, segments using removeDots.induct with
  | case1 output =>
      exact (some rfl).elim
  | case2 output =>
      simp only [removeDots, ↓reduceIte]
      exact ⟨clean.snoc rfl (by simp), by simp⟩
  | case3 output notDot =>
      simp only [removeDots, notDot, ↓reduceIte]
      exact ⟨clean.dropLast.snoc rfl (by simp), by simp⟩
  | case4 output last notDot notDots =>
      simp only [removeDots, notDot, notDots, ↓reduceIte]
      exact ⟨clean.snoc (isDot_eq_false notDot notDots)
        (noSlash last (by simp)), by simp⟩
  | case5 output next rest inductionHypothesis =>
      simp only [removeDots, ↓reduceIte]
      exact inductionHypothesis clean
        (fun segment member => noSlash segment (List.mem_cons_of_mem _ member))
        (by simp)
  | case6 output next rest notDot inductionHypothesis =>
      simp only [removeDots, notDot, ↓reduceIte]
      exact inductionHypothesis clean.dropLast
        (fun segment member => noSlash segment (List.mem_cons_of_mem _ member))
        (by simp)
  | case7 output segment next rest notDot notDots inductionHypothesis =>
      simp only [removeDots, notDot, notDots, ↓reduceIte]
      refine inductionHypothesis ?_
        (fun other member => noSlash other (List.mem_cons_of_mem _ member))
        (by simp)
      exact clean.snoc (isDot_eq_false notDot notDots)
        (noSlash segment (by simp))

/-- Where there is nothing to remove all segments are moved to the output. -/
theorem removeDots_of_dotless
    {output segments : List (List Char)}
    (dotless : ∀ segment ∈ segments, isDot segment = false) :
    removeDots output segments = output ++ segments.map (List.cons '/') := by
  have kept :
      ∀ segment ∈ segments, segment ≠ ['.'] ∧ segment ≠ ['.', '.'] := by
    intro segment member
    have notDot := dotless segment member
    simp only [isDot, Bool.or_eq_false_iff, beq_eq_false_iff_ne] at notDot
    exact notDot
  clear dotless
  induction segments generalizing output with
  | nil =>
      simp [removeDots]
  | cons segment rest inductionHypothesis =>
      have first := kept segment List.mem_cons_self
      have others := fun other member =>
        kept other (List.mem_cons_of_mem segment member)
      cases rest with
      | nil =>
          simp [removeDots, first]
      | cons next others' =>
          simp [removeDots, first, inductionHypothesis others]

/-- Segments after a slash each are the segments of what they make up. -/
theorem flatten_slashes
    {segments : List (List Char)}
    (some : segments ≠ []) :
    (segments.map (List.cons '/')).flatten = '/' :: ['/'].intercalate segments := by
  induction segments with
  | nil =>
      exact (some rfl).elim
  | cons segment rest inductionHypothesis =>
      cases rest with
      | nil =>
          simp
      | cons next others =>
          rw [List.map_cons, List.flatten_cons, inductionHypothesis (by simp)]
          simp

theorem noSlash_splitOn
    (path : List Char) :
    ∀ segment ∈ path.splitOn '/', '/' ∉ segment := by
  induction path with
  | nil =>
      simp
  | cons char rest inductionHypothesis =>
      rw [List.splitOn_cons_eq_if_modifyHead]
      split
      · intro segment member
        rcases List.mem_cons.mp member with rfl | later
        · simp
        · exact inductionHypothesis segment later
      · rename_i notSlash
        have notSlash : char ≠ '/' := by simpa using notSlash
        cases shape : rest.splitOn '/' with
        | nil =>
            exact (List.splitOn_ne_nil '/' rest shape).elim
        | cons first others =>
            rw [shape] at inductionHypothesis
            intro segment member
            rcases List.mem_cons.mp member with rfl | later
            · have inFirst := inductionHypothesis first List.mem_cons_self
              simpa [Ne.symm notSlash] using inFirst
            · exact inductionHypothesis segment (List.mem_cons_of_mem _ later)

/-- What becomes of a path that begins with a slash. -/
theorem removeDotSegments_cons
    (rest : List Char) :
    removeDotSegments ('/' :: rest) =
      (removeDots [] (rest.splitOn '/')).flatten := by
  have split : ('/' :: rest).splitOn '/' = [] :: rest.splitOn '/' := by
    simp [List.splitOn_cons_eq_if_modifyHead]
  unfold removeDotSegments
  rw [split]
  cases shape : rest.splitOn '/' with
  | nil =>
      exact (List.splitOn_ne_nil '/' rest shape).elim
  | cons next others =>
      simp [removeDotsFrom]

/-- A path that begins with a slash still does, and it has no dot segments. -/
theorem removeDotSegments_rooted
    (rest : List Char) :
    ∃ segments,
      segments ≠ [] ∧
        (∀ segment ∈ segments, isDot segment = false ∧ '/' ∉ segment) ∧
          removeDotSegments ('/' :: rest) = '/' :: ['/'].intercalate segments := by
  rw [removeDotSegments_cons]
  obtain ⟨⟨segments, shape, each⟩, notEmpty⟩ :=
    clean_removeDots Clean.nil (noSlash_splitOn rest)
      (List.splitOn_ne_nil '/' rest)
  have some : segments ≠ [] := by
    rintro rfl
    exact notEmpty shape
  exact ⟨segments, some, each, by rw [shape, flatten_slashes some]⟩

theorem dotless_cons
    (rest : List Char) :
    Dotless ('/' :: rest) ↔ ∀ segment ∈ rest.splitOn '/', isDot segment = false := by
  unfold Dotless
  rw [List.splitOn_cons_eq_if_modifyHead]
  simp [isDot]

/-- A path stays as it is if and only if it has no dot segments. -/
theorem removeDotSegments_eq_self
    {path : List Char}
    (rooted : Rooted path) :
    removeDotSegments path = path ↔ Dotless path := by
  rcases rooted with rfl | starts
  · decide
  · obtain ⟨rest, rfl⟩ : ∃ rest, path = '/' :: rest := by
      cases path with
      | nil =>
          cases starts
      | cons char rest =>
          exact ⟨rest, by simpa using starts⟩
    rw [dotless_cons]
    constructor
    · intro same
      obtain ⟨segments, some, each, shape⟩ := removeDotSegments_rooted rest
      rw [shape, List.cons.injEq] at same
      have split : rest.splitOn '/' = segments := by
        rw [← same.2]
        exact List.splitOn_intercalate '/' (fun segment member =>
          (each segment member).2) some
      rw [split]
      exact fun segment member => (each segment member).1
    · intro dotless
      rw [removeDotSegments_cons, removeDots_of_dotless dotless,
        List.nil_append, flatten_slashes (List.splitOn_ne_nil '/' rest),
        List.intercalate_splitOn]

/-- A relative path that is merged with a rooted one becomes a rooted one. -/
theorem merge_rooted
    {Authority : Type}
    (base : Reference Authority)
    (hasAuthority : base.authority.isSome = true)
    (rooted : Rooted base.path)
    (path : List Char) :
    ∃ rest, merge base path = '/' :: rest := by
  unfold merge
  rcases rooted with empty | starts
  · exact ⟨path, by simp [hasAuthority, empty]⟩
  · have notEmpty : base.path ≠ [] := by
      intro empty
      simp [empty] at starts
    obtain ⟨rest, shape⟩ : ∃ rest, base.path = '/' :: rest := by
      cases baseShape : base.path with
      | nil =>
          exact (notEmpty baseShape).elim
      | cons char rest =>
          rw [baseShape] at starts
          exact ⟨rest, by simpa using starts⟩
    refine ⟨(directory base.path).tail ++ path, ?_⟩
    have begins : ∃ others, directory base.path = '/' :: others := by
      unfold directory
      rw [shape, List.reverse_cons]
      have kept :
          ∀ front : List Char,
            ∃ others,
              ((front ++ ['/']).dropWhile (· != '/')).reverse =
                '/' :: others := by
        intro front
        induction front with
        | nil =>
            exact ⟨[], by simp⟩
        | cons char front inductionHypothesis =>
            by_cases slash : char = '/'
            · exact ⟨front.reverse ++ ['/'], by simp [slash]⟩
            · simpa [slash] using inductionHypothesis
      exact kept rest.reverse
    obtain ⟨others, directoryShape⟩ := begins
    simp [notEmpty, directoryShape]

end UriReference
