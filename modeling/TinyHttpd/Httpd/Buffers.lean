import TinyHttpd.Httpd.DocumentRoot

/-!
# The strings a handler builds

The line buffer, `url`, `path` and the environment strings of the child all have 1024
bytes.  The copying loops stop at the end of `url`, but `sprintf` and `strcat` put a text of
their own in front of a part of the line or behind it, and nothing checks that the two fit.
-/

namespace Httpd

open CString

/-! ## Strings -/

/-- What `path` holds in turn: behind the `sprintf`, behind the `strcat` of a URL that ends
in a backslash, and behind the two of a directory. -/
def pathStrings (env : Env) (url : Bytes) : List Bytes :=
  let path := bytes "htdocs" ++ url
  [path] ++ (if path.getLast? = some 92 then [path ++ mainPage] else []) ++
    if (env.stat (buildPath url)).any Stat.isDir then
      [buildPath url ++ bytes "/", buildPath url ++ bytes "/" ++ mainPage]
    else []

/-- The string a child puts into its environment. -/
def ChildCall.entry : ChildCall → List Bytes
  | .putenv entry => [entry]
  | _ => []

/-- The environment strings of the child a call starts. -/
def Call.entries : Call → List Bytes
  | .fork (some child) => child.flatMap ChildCall.entry
  | _ => []

/-- The strings of a run that depend on the request. -/
def builtStrings (env : Env) (input : Bytes) : List Bytes :=
  (if Known (requestMethod input) then pathStrings env (requestTarget input) else []) ++
    (acceptRequest env input).flatMap Call.entries

theorem fileView_entries : FileView Call.entries :=
  ⟨fun _ _ _ => rfl, fun _ _ => rfl, fun _ _ _ _ => rfl, fun _ _ _ => rfl, rfl, fun _ _ => rfl,
    fun _ _ => rfl, fun _ => rfl, rfl⟩

/-! ## Paths -/

/-- The part of the URL the path is built from ends in a backslash. -/
def EndsInBackslash (url : Bytes) : Prop := url.getLast? = some 92

instance (url : Bytes) : Decidable (EndsInBackslash url) := inferInstanceAs (Decidable (_ = _))

theorem getLast?_htdocs_append (url : Bytes) :
    (bytes "htdocs" ++ url).getLast? = some 92 ↔ EndsInBackslash url := by
  cases url with
  | nil => exact iff_of_false (by decide) (by decide)
  | cons c url => rw [List.getLast?_append_cons, EndsInBackslash]

theorem buildPath_of_backslash {url : Bytes} (h : EndsInBackslash url) :
    buildPath url = bytes "htdocs" ++ url ++ mainPage :=
  if_pos ((getLast?_htdocs_append url).mpr h)

theorem buildPath_of_not_backslash {url : Bytes} (h : ¬EndsInBackslash url) :
    buildPath url = bytes "htdocs" ++ url :=
  if_neg fun hlast => h ((getLast?_htdocs_append url).mp hlast)

/-- How much of the main page is in the path before `stat`. -/
def mainPageLength (url : Bytes) : Nat := if EndsInBackslash url then 10 else 0

theorem length_buildPath (url : Bytes) :
    (buildPath url).length = 6 + url.length + mainPageLength url := by
  have hroot : (bytes "htdocs").length = 6 := by decide
  have hpage : mainPage.length = 10 := by decide
  by_cases h : EndsInBackslash url
  · rw [buildPath_of_backslash h, mainPageLength, if_pos h, List.length_append,
      List.length_append, hroot, hpage]
  · rw [buildPath_of_not_backslash h, mainPageLength, if_neg h, List.length_append, hroot,
      Nat.add_zero]

theorem forall_mem_ite_nil {α : Type} {p : Prop} [Decidable p] {l : List α} {P : α → Prop} :
    (∀ a ∈ if p then l else [], P a) ↔ (p → ∀ a ∈ l, P a) := by
  split
  next hp => exact (imp_iff_right hp).symm
  next hp => exact iff_of_true (List.forall_mem_nil P) fun h => absurd h hp

theorem pathStrings_fit_iff (env : Env) (url : Bytes) :
    (∀ s ∈ pathStrings env url, s.length < commSize) ↔
      url.length ≤ 1017 ∧ (EndsInBackslash url → url.length ≤ 1007) ∧
        ((env.stat (buildPath url)).any Stat.isDir = true →
          url.length + mainPageLength url ≤ 1006) := by
  have hroot : (bytes "htdocs").length = 6 := by decide
  have hpage : mainPage.length = 10 := by decide
  have hslash : (bytes "/").length = 1 := by decide
  have hsize : commSize = 1024 := rfl
  have hfirst : (bytes "htdocs" ++ url).length < commSize ↔ url.length ≤ 1017 := by
    rw [List.length_append, hroot]
    omega
  have hbackslash : (bytes "htdocs" ++ url ++ mainPage).length < commSize ↔
      url.length ≤ 1007 := by
    rw [List.length_append, List.length_append, hroot, hpage]
    omega
  have hdirectory : ((buildPath url ++ bytes "/").length < commSize ∧
      (buildPath url ++ bytes "/" ++ mainPage).length < commSize) ↔
        url.length + mainPageLength url ≤ 1006 := by
    rw [List.length_append, List.length_append, List.length_append, length_buildPath, hslash, hpage]
    omega
  rw [pathStrings]
  rw [List.forall_mem_append, List.forall_mem_append, List.forall_mem_singleton,
    forall_mem_ite_nil, List.forall_mem_singleton, forall_mem_ite_nil, List.forall_mem_cons,
    List.forall_mem_singleton, getLast?_htdocs_append, hfirst, hbackslash, hdirectory, and_assoc]

/-! ## Environment strings -/

theorem length_copyWord_le : ∀ (room : Nat) (buffer : Bytes),
    (copyWord room buffer).1.length ≤ room
  | 0, _ => Nat.zero_le _
  | _ + 1, [] => Nat.zero_le _
  | room + 1, c :: buffer => by
      have ih := length_copyWord_le room buffer
      rw [copyWord]
      split
      next => exact Nat.zero_le _
      next => exact Nat.succ_le_succ ih

theorem length_requestMethod_le (input : Bytes) : (requestMethod input).length ≤ 101 :=
  (List.takeWhile_prefix _).length_le.trans (length_copyWord_le _ _)

theorem isInt_announcedLength (sock : Fd) (method input : Bytes) :
    IsInt (announcedLength sock method input) := by
  rw [announcedLength]
  split
  next => decide
  next => exact isInt_postHeader sock input

theorem get_strcasecmp_iff (method : Bytes) :
    strcasecmp (bytes "GET") method = 0 ↔ IsGet method := by
  rw [IsGet, strcasecmp_eq_zero, strcasecmp_eq_zero, eq_comm]

/-- Of a child's strings only a query string can be too long. -/
theorem entries_fit_iff {env : Env} {path method query : Bytes} {n : Int}
    (hmethod : method.length ≤ 101) (hn : IsInt n) :
    (∀ s ∈ (exeCgiChild env path method query n).flatMap ChildCall.entry,
        s.length < commSize) ↔ (IsGet method → query.length ≤ 1010) := by
  have hname : (bytes "REQUEST_METHOD=").length = 15 := by decide +kernel
  have hquery : (bytes "QUERY_STRING=").length = 13 := by decide +kernel
  have hlength : (bytes "CONTENT_LENGTH=").length = 15 := by decide +kernel
  have hsize : commSize = 1024 := rfl
  have hdecimal := length_decimal_le hn
  have hexit : (if env.execl then [] else [ChildCall.exit 1]).flatMap ChildCall.entry = [] := by
    split <;> rfl
  have hentries : (exeCgiChild env path method query n).flatMap ChildCall.entry =
      [bytes "REQUEST_METHOD=" ++ method, if strcasecmp (bytes "GET") method = 0 then
        bytes "QUERY_STRING=" ++ query else bytes "CONTENT_LENGTH=" ++ decimal n] := by
    simp [exeCgiChild, ChildCall.entry, hexit]
  have hfirst : (bytes "REQUEST_METHOD=" ++ method).length < commSize := by
    rw [List.length_append, hname]
    omega
  rw [hentries, List.forall_mem_cons, List.forall_mem_singleton, and_iff_right hfirst]
  by_cases hget : IsGet method
  · rw [if_pos ((get_strcasecmp_iff method).mpr hget), List.length_append, hquery,
      imp_iff_right hget]
    omega
  · rw [if_neg fun h => hget ((get_strcasecmp_iff method).mp h), List.length_append, hlength]
    exact iff_of_true (by omega) fun h => absurd h hget

/-! ## Which requests fit -/

/-- The parts of the request are short enough for what is put around them. -/
structure PartsFit (env : Env) (input : Bytes) : Prop where
  path : Known (requestMethod input) → (requestTarget input).length ≤ 1017
  backslash : Known (requestMethod input) → EndsInBackslash (requestTarget input) →
    (requestTarget input).length ≤ 1007
  directory : Known (requestMethod input) →
    (env.stat (buildPath (requestTarget input))).any Stat.isDir = true →
    (requestTarget input).length + mainPageLength (requestTarget input) ≤ 1006
  query : IsGet (requestMethod input) → env.forks →
    (env.stat (buildPath (requestTarget input))).any (isProgram input) = true →
    (requestQuery input).length ≤ 1010

theorem entries_acceptRequest_fit_iff (env : Env) (input : Bytes) :
    (∀ s ∈ (acceptRequest env input).flatMap Call.entries, s.length < commSize) ↔
      (IsGet (requestMethod input) → env.forks →
        (env.stat (buildPath (requestTarget input))).any (isProgram input) = true →
        (requestQuery input).length ≤ 1010) := by
  rw [fileView_entries.acceptRequest]
  by_cases hknown : Known (requestMethod input)
  · rw [route_of_known hknown]
    cases env.stat (buildPath (requestTarget input)) with
    | none => simp [Call.entries]
    | some st =>
        dsimp only [Option.any_some]
        cases isProgram input st with
        | false => simp [Call.entries]
        | true =>
            simp only [if_true, Call.entries, List.nil_append]
            rw [forall_mem_ite_nil, entries_fit_iff (length_requestMethod_le input)
              (isInt_announcedLength _ _ _), Forks]
            constructor
            · exact fun h hget hforks _ => h ⟨hforks, .inl hget⟩ hget
            · exact fun h hforks hget => h hget hforks.1 trivial
  · rw [route_of_not_known hknown]
    simp only [List.not_mem_nil, false_imp_iff, implies_true, true_iff]
    exact fun hget => absurd (.inl hget) hknown

/-- For every request and every system: each string that the handler builds out of a part of
the request fits its 1024 bytes, the NUL included, exactly when the parts are short
enough. -/
theorem builtStrings_fit_iff (env : Env) (input : Bytes) :
    (∀ s ∈ builtStrings env input, s.length + 1 ≤ 1024) ↔ PartsFit env input := by
  have hbuilt : (∀ s ∈ builtStrings env input, s.length < commSize) ↔ PartsFit env input := by
    rw [builtStrings, List.forall_mem_append, forall_mem_ite_nil, pathStrings_fit_iff,
      entries_acceptRequest_fit_iff]
    constructor
    · rintro ⟨hpath, hquery⟩
      exact ⟨fun hk => (hpath hk).1, fun hk => (hpath hk).2.1, fun hk => (hpath hk).2.2, hquery⟩
    · rintro ⟨hpath, hbackslash, hdirectory, hquery⟩
      exact ⟨fun hk => ⟨hpath hk, hbackslash hk, hdirectory hk⟩, hquery⟩
  exact hbuilt

/-- A request line of 1023 bytes with nothing behind the URL. -/
def longUrl : Bytes := bytes "GET /" ++ List.replicate 1018 97

/-- `htdocs` in front of a URL of 1019 bytes is too much for `path`. -/
theorem builtStrings_overrun :
    (requestLine longUrl).line.length ≤ 1023 ∧
      ∃ s ∈ builtStrings Env.obliging longUrl, 1024 < s.length + 1 := by
  decide +kernel

end Httpd
