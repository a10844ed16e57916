/-
  DexProxy.Harbor.Url — where the client's requests go: the URL `_request` and
  `_request_xnode` hand to `_send_request`.

  The constructor `rstrip`s the bases and prefixes, `_request` puts a `/` before a path
  that lacks one, and `_compose_url` drops the empty parts before it strips `/` from both
  ends of the others, which it joins with `/`.

  Proved:
  - `composeUrl_prepared`: after the constructor and `_request`, `_compose_url` is
    `"/".join` of the non-empty ones among base, prefix and path, each stripped of `/`
    (`strippedJoin`); so `request_url_stripped_join`: both URLs are that join, for every
    client, any number of `/` around any input leaves them as they are, and every joined
    part is non-empty with no `/` at either end.
  - `identifier_appended_verbatim`: the identifier of `get_depth`, `get_withdraw` and
    `get_tx_details` goes into the URL as it is, after the endpoint's URL and a `/`, when
    it is non-empty and does not end in `/`. Nothing is escaped.
  - `parseUri_append_segment`: split into components as RFC 3986, Appendix B, splits a
    URL, a URL without `?` or `#` that does not end in `/`, followed by `/` and a segment
    without `/`, `?` or `#`, is that URL with the segment added to its path;
    `removeDotSegments_append_segment`: once dot segments are removed, such a segment that
    is neither `.` nor `..` is still the last, after segments that do not depend on it.
  - `identifier_not_confined`: so the URL does not tell `abc` from `abc/`, `?` and `#` in an
    identifier start a query or a fragment, and the symbol `../withdraw` reaches
    `/api/v1/withdraw` once dot segments are removed;
    `identifier_confined_when_segment_safe`: when the endpoint's URL has no `?` or `#`, an
    identifier that is not empty, has no `/`, `?` or `#` and is neither `.` nor `..` changes
    only the last path segment, as sent and once dot segments are removed. Percent-decoding,
    which a client may apply before it removes dot segments (`%2E%2E`), is not modelled.
-/

import DexProxy.Harbor.Api

namespace DexProxy.HarborConnector

open DexProxy.Python

/-- `"/".join` of the non-empty ones among `base`, `apiPath` and `path`, stripped of `/`. -/
def strippedJoin (base apiPath path : String) : String :=
  join "/" ([strip base "/", strip apiPath "/", strip path "/"].filter truthy)

theorem slash_isIn : isIn "/" '/' = true := rfl

theorem lstrip_slashed (path : String) : lstrip (slashed path) "/" = lstrip path "/" := by
  unfold slashed
  split
  · rfl
  · exact lstrip_append_of_all (by decide) path

theorem composeUrl_prepared (base apiPath path : String) :
    composeUrl (rstrip base "/") (rstrip apiPath "/") (slashed path) = strippedJoin base apiPath path := by
  unfold composeUrl strippedJoin
  rw [lstrip_slashed]
  by_cases hb : truthy (strip base "/") <;> by_cases hp : truthy (strip apiPath "/") <;>
    by_cases hq : truthy (strip path "/") <;> simp [hb, hp, hq]

theorem rstrip_of_not_truthy {s : String} (h : truthy s = false) (chars : String) : rstrip s chars = "" := by
  have hs : s.data = [] := by simpa [truthy] using h
  exact String.ext (by simp [hs])

theorem xnodeApiPath_new (session : Nat) (a : ClientArgs) :
    (HarborAPI.new session a).xnodeApiPath = rstrip a.xnodeApiPath "/" := by
  simp only [HarborAPI.new]
  split
  · rfl
  · rename_i h
    exact (rstrip_of_not_truthy (Bool.eq_false_iff.mpr h) _).symm

theorem xnodeBase_new (session : Nat) (a : ClientArgs) :
    (HarborAPI.new session a).xnodeBase = if truthyOpt a.xnodeBase then a.xnodeBase.map (rstrip · "/") else none :=
  rfl

theorem strippedJoin_pad (base apiPath path : String) (i j : Nat) :
    strippedJoin (pad '/' i j base) apiPath path = strippedJoin base apiPath path ∧
    strippedJoin base (pad '/' i j apiPath) path = strippedJoin base apiPath path ∧
    strippedJoin base apiPath (pad '/' i j path) = strippedJoin base apiPath path := by
  simp only [strippedJoin, strip_pad slash_isIn, and_self]

theorem strippedJoin_parts (base apiPath path : String) :
    ∀ q ∈ [strip base "/", strip apiPath "/", strip path "/"].filter truthy,
      truthy q ∧ startswith q "/" = false ∧ endswith q "/" = false := by
  intro q hq
  obtain ⟨hmem, hq⟩ := List.mem_filter.mp hq
  refine ⟨hq, ?_⟩
  simp only [List.mem_cons, List.mem_singleton, List.not_mem_nil, or_false] at hmem
  rcases hmem with rfl | rfl | rfl <;>
    exact ⟨strip_not_startswith slash_isIn _, strip_not_endswith slash_isIn _⟩

/-- The URL `_request` hands to `_send_request` is the stripped join of the client's
    `rest_base`, `rest_api_path` and the path, and that of `_request_xnode` the stripped join of
    `xnode_base`, `xnode_api_path` and the path when `xnode_base` is set. The stripped join does
    not change when `/`s are added around an input, and it joins parts that are non-empty and
    have no `/` at either end. -/
theorem request_url_stripped_join (session : Nat) (method : String) (params jsonPayload : Option Dict) :
    let url := fun (a : ClientArgs) (path : String) =>
      ((HarborAPI.new session a).requestArgs method path params jsonPayload).url
    let xnodeUrl := fun (a : ClientArgs) (path : String) =>
      ((HarborAPI.new session a).requestXnodeArgs method path params jsonPayload).map SendArgs.url
    (∀ a path, url a path = strippedJoin a.restBase a.restApiPath path) ∧
    (∀ a path, xnodeUrl a path =
      if truthyOpt a.xnodeBase then .ok (strippedJoin (a.xnodeBase.getD "") a.xnodeApiPath path)
      else .error (.harborAPIError xnodeNotConfigured)) ∧
    (∀ a path i j, url { a with restBase := pad '/' i j a.restBase } path = url a path ∧
      url { a with restApiPath := pad '/' i j a.restApiPath } path = url a path ∧
      url a (pad '/' i j path) = url a path) ∧
    (∀ base apiPath path i j,
      strippedJoin (pad '/' i j base) apiPath path = strippedJoin base apiPath path ∧
      strippedJoin base (pad '/' i j apiPath) path = strippedJoin base apiPath path ∧
      strippedJoin base apiPath (pad '/' i j path) = strippedJoin base apiPath path) ∧
    ∀ base apiPath path, ∀ q ∈ [strip base "/", strip apiPath "/", strip path "/"].filter truthy,
      truthy q ∧ startswith q "/" = false ∧ endswith q "/" = false := by
  intro url xnodeUrl
  have hurl : ∀ a path, url a path = strippedJoin a.restBase a.restApiPath path := fun a path =>
    composeUrl_prepared a.restBase a.restApiPath path
  refine ⟨hurl, fun a path => ?_, fun a path i j => ?_, strippedJoin_pad, strippedJoin_parts⟩
  · cases hb : a.xnodeBase with
    | none => simp [xnodeUrl, HarborAPI.requestXnodeArgs, HarborAPI.new, hb, truthyOpt]; rfl
    | some b =>
      by_cases ht : truthy b
      · simp [xnodeUrl, HarborAPI.requestXnodeArgs, xnodeBase_new, xnodeApiPath_new, hb, truthyOpt, ht,
          Except.map, composeUrl_prepared]
      · simp [xnodeUrl, HarborAPI.requestXnodeArgs, HarborAPI.new, hb, truthyOpt, ht]; rfl
  · simp only [hurl]
    exact strippedJoin_pad _ _ _ i j

/-- The design's case: the prefix `/api/v1` and the path `markets`, with or without its `/`. -/
example : ((HarborAPI.new 0 { restBase := "http://h", restApiPath := "/api/v1", apiKey := none }).requestArgs
      "GET" "markets").url = "http://h/api/v1/markets" ∧
    ((HarborAPI.new 0 { restBase := "http://h", restApiPath := "/api/v1", apiKey := none }).requestArgs
      "GET" "/markets").url = "http://h/api/v1/markets" := by
  decide

/-! ## Identifiers in the path -/

/-- The operations whose path ends in a caller's identifier. -/
inductive IdOp where
  | getDepth (depth : Option Int)
  | getWithdraw
  | getTxDetails

/-- The operation on identifier `x`; `_get_depth` passes its `symbol` on as it is. -/
def IdOp.call : IdOp → String → ApiCall
  | .getDepth depth, x => .getDepth (.str x) depth
  | .getWithdraw, x => .getWithdraw x
  | .getTxDetails, x => .getTxDetails x

/-- The same request with the endpoint's path, the identifier left out. -/
def IdOp.endpointArgs (api : HarborAPI) : IdOp → Except Exc SendArgs
  | .getDepth depth => .ok (api.requestArgs "POST" "/depth" (depth.map fun d => [("depth", .int d)]))
  | .getWithdraw => .ok (api.requestArgs "GET" "/withdraw")
  | .getTxDetails => api.requestXnodeArgs "GET" "/tx/details"

/-- The parts `_compose_url` keeps before the path's, stripped. -/
def frontParts (base apiPath : String) : List String :=
  (([base] ++ if truthy apiPath then [lstrip apiPath "/"] else []).filter truthy).map (strip · "/")

theorem composeUrl_eq_front (base apiPath path : String) (h : truthy (strip path "/")) :
    composeUrl base apiPath path = join "/" (frontParts base apiPath ++ [strip path "/"]) := by
  simp only [composeUrl]
  rw [List.filter_append, List.map_append]
  simp only [List.filter_cons, List.filter_nil, truthy_lstrip, h, if_true, List.map_cons, List.map_nil,
    strip_lstrip]
  rfl

/-- An identifier after `"/" ++ e ++ "/"` lands after the URL of `"/" ++ e` and a `/`, as it is. -/
theorem composeUrl_identifier (base apiPath : String) {e p q x : String} (hp : p = "/" ++ e ++ "/")
    (hq : q = "/" ++ e) (he : lstrip e "/" = e) (he' : rstrip e "/" = e) (het : truthy e)
    (hx : truthy x) (hx' : rstrip x "/" = x) :
    composeUrl base apiPath (slashed (p ++ x)) = composeUrl base apiPath (slashed q) ++ "/" ++ x := by
  have hslash : ∀ t, slashed ("/" ++ t) = "/" ++ t := fun t => if_pos (by simp [startswith])
  have hlast : strip (p ++ x) "/" = e ++ ("/" ++ x) := by
    rw [hp, strip, String.append_assoc, String.append_assoc, lstrip_append_of_all (by decide),
      lstrip_append (by rwa [he]), he, ← String.append_assoc, rstrip_append (by rwa [hx']), hx']
  have hend : strip q "/" = e := by
    rw [hq, strip, lstrip_append_of_all (by decide), he, he']
  rw [hp, String.append_assoc, String.append_assoc, hslash, ← String.append_assoc, ← String.append_assoc,
    ← hp, hq, hslash, ← hq, composeUrl_eq_front _ _ _ (by rw [hlast]; simp),
    composeUrl_eq_front _ _ _ (by rwa [hend]), hlast, hend, join_append_last, String.append_assoc]

/-- The identifier of `get_depth`, `get_withdraw` and `get_tx_details` goes into the URL
    unescaped, after the endpoint's URL and a `/`, whenever it is non-empty and does not end
    in `/`. -/
theorem identifier_appended_verbatim (api : HarborAPI) (op : IdOp) {x : String} (hx : truthy x)
    (hx' : rstrip x "/" = x) :
    (api.callArgs (op.call x)).map SendArgs.url = (op.endpointArgs api).map fun e => e.url ++ "/" ++ x := by
  cases op with
  | getDepth depth =>
    simp only [IdOp.call, IdOp.endpointArgs, HarborAPI.callArgs, HarborAPI.requestArgs, Value.toStr,
      Except.map, Except.ok.injEq]
    exact composeUrl_identifier _ _ (e := "depth") (by decide) (by decide) (by decide) (by decide) (by decide) hx hx'
  | getWithdraw =>
    simp only [IdOp.call, IdOp.endpointArgs, HarborAPI.callArgs, HarborAPI.requestArgs, Except.map,
      Except.ok.injEq]
    exact composeUrl_identifier _ _ (e := "withdraw") (by decide) (by decide) (by decide) (by decide) (by decide) hx hx'
  | getTxDetails =>
    simp only [IdOp.call, IdOp.endpointArgs, HarborAPI.callArgs, HarborAPI.requestXnodeArgs]
    cases api.xnodeBase with
    | none => rfl
    | some base =>
      simp only [Except.map, Except.ok.injEq]
      exact composeUrl_identifier _ _ (e := "tx/details") (by decide) (by decide) (by decide) (by decide) (by decide) hx hx'

/-! ## The URL's components -/

/-- A URI reference's components, as the regular expression of RFC 3986, Appendix B, splits
    it: `^(([^:/?#]+):)?(//([^/?#]*))?([^?#]*)(\?([^#]*))?(#(.*))?`. -/
structure UriParts where
  scheme : Option String
  authority : Option String
  path : String
  query : Option String
  fragment : Option String
  deriving DecidableEq, Repr

/-- `(([^:/?#]+):)?`: the scheme, and the text after its `:`. -/
def splitScheme (l : List Char) : Option (List Char) × List Char :=
  let span := l.span (· ∉ [':', '/', '?', '#'])
  if span.1 ≠ [] ∧ span.2.head? = some ':' then (some span.1, span.2.tail) else (none, l)

/-- `(//([^/?#]*))?`. -/
def splitAuthority : List Char → Option (List Char) × List Char
  | '/' :: '/' :: rest => Prod.map some id (rest.span (· ∉ ['/', '?', '#']))
  | l => (none, l)

/-- `(\?([^#]*))?`. -/
def splitQuery : List Char → Option (List Char) × List Char
  | '?' :: rest => Prod.map some id (rest.span (· ≠ '#'))
  | l => (none, l)

/-- `(#(.*))?`. -/
def splitFragment : List Char → Option (List Char)
  | '#' :: rest => some rest
  | _ => none

def parseUri (u : String) : UriParts :=
  let scheme := splitScheme u.data
  let authority := splitAuthority scheme.2
  let path := authority.2.span (· ∉ ['?', '#'])
  let query := splitQuery path.2
  { scheme := scheme.1.map String.mk, authority := authority.1.map String.mk, path := ⟨path.1⟩,
    query := query.1.map String.mk, fragment := (splitFragment query.2).map String.mk }

example : parseUri "http://127.0.0.1/api/v1/withdraw/abc?all=1#top" =
    ⟨some "http", some "127.0.0.1", "/api/v1/withdraw/abc", some "all=1", some "top"⟩ := by
  decide

theorem span_append_stop (p : Char → Bool) {c : Char} (hc : p c = false) (l m : List Char) :
    (l ++ c :: m).span p = ((l.span p).1, (l.span p).2 ++ c :: m) := by
  simp only [List.span_eq_take_drop]
  induction l with
  | nil => simp [hc]
  | cons a l ih =>
    rw [Prod.mk.injEq] at ih
    by_cases ha : p a <;> simp [ha, ih]

theorem span_of_all {p : Char → Bool} {l : List Char} (h : ∀ c ∈ l, p c) : l.span p = (l, []) := by
  rw [List.span_eq_take_drop, List.takeWhile_eq_self_iff.mpr h, List.dropWhile_eq_nil_iff.mpr h]

theorem splitScheme_append_slash (l m : List Char) :
    splitScheme (l ++ '/' :: m) = ((splitScheme l).1, (splitScheme l).2 ++ '/' :: m) := by
  unfold splitScheme
  rw [span_append_stop _ (by decide) l m]
  rcases l.span _ with ⟨s, _ | ⟨c, r⟩⟩
  · simp
  · by_cases h : s ≠ [] ∧ c = ':' <;> simp [h]

theorem splitScheme_suffix (l : List Char) : (splitScheme l).2 <:+ l := by
  dsimp only [splitScheme]
  split_ifs
  · rw [List.span_eq_take_drop]
    exact (List.tail_suffix _).trans (List.dropWhile_suffix _)
  · exact List.suffix_refl l

theorem splitAuthority_suffix (l : List Char) : (splitAuthority l).2 <:+ l := by
  unfold splitAuthority
  split
  · rw [List.span_eq_take_drop]
    exact (List.dropWhile_suffix _).trans ((List.suffix_cons _ _).trans (List.suffix_cons _ _))
  · exact List.suffix_refl _

theorem splitAuthority_append_slash {l : List Char} (hl : l ≠ ['/']) {m : List Char} (hm : m.head? ≠ some '/') :
    splitAuthority (l ++ '/' :: m) = ((splitAuthority l).1, (splitAuthority l).2 ++ '/' :: m) := by
  rcases l with _ | ⟨a, _ | ⟨b, rest⟩⟩
  · rcases m with _ | ⟨b, m⟩
    · rfl
    · have hb : b ≠ '/' := by simpa using hm
      simp [splitAuthority, hb]
  · have ha : a ≠ '/' := by simpa using hl
    simp [splitAuthority, ha]
  · by_cases hab : a = '/' ∧ b = '/'
    · obtain ⟨rfl, rfl⟩ := hab
      simp only [splitAuthority, List.cons_append]
      rw [span_append_stop (fun c => decide (c ∉ ['/', '?', '#'])) (by decide)]
      rfl
    · have hs : ∀ l, splitAuthority (a :: b :: l) = (none, a :: b :: l) := by
        intro l
        unfold splitAuthority
        split
        · rename_i h; simp at h; exact absurd ⟨h.1, h.2.1⟩ hab
        · rfl
      simp [hs]

/-- What is left of a URL without `?` or `#` after its scheme and authority is its path. -/
theorem afterAuthority_in_path {u : String} (hq : '?' ∉ u.data) (hf : '#' ∉ u.data) :
    ∀ c ∈ (splitAuthority (splitScheme u.data).2).2, decide (c ∉ ['?', '#']) = true := by
  obtain ⟨t, ht⟩ := (splitAuthority_suffix _).trans (splitScheme_suffix u.data)
  intro c hc
  have hu : c ∈ u.data := ht ▸ List.mem_append_right t hc
  simp only [List.mem_cons, List.mem_singleton, List.not_mem_nil, or_false, decide_eq_true_eq, not_or]
  exact ⟨fun h => hq (h ▸ hu), fun h => hf (h ▸ hu)⟩

theorem parseUri_no_query {u : String} (hq : '?' ∉ u.data) (hf : '#' ∉ u.data) :
    (parseUri u).query = none ∧ (parseUri u).fragment = none := by
  simp only [parseUri, span_of_all (afterAuthority_in_path hq hf)]
  exact ⟨rfl, rfl⟩

/-- A URL without `?` or `#` that does not end in `/`, followed by `/` and a segment without
    `/`, `?` or `#`, parses as the URL with that segment added to its path. -/
theorem parseUri_append_segment {u x : String} (hq : '?' ∉ u.data) (hf : '#' ∉ u.data)
    (hend : u.data.getLast? ≠ some '/') (hx : ∀ c ∈ x.data, c ∉ ['/', '?', '#']) :
    parseUri (u ++ "/" ++ x) = { parseUri u with path := (parseUri u).path ++ "/" ++ x } := by
  have hdata : (u ++ "/" ++ x).data = u.data ++ '/' :: x.data := by simp
  have hs : (splitScheme u.data).2 ≠ ['/'] := fun h => hend (by
    obtain ⟨t, ht⟩ := splitScheme_suffix u.data
    rw [← ht, h]
    simp)
  have hm : x.data.head? ≠ some '/' := fun h => hx '/' (List.mem_of_mem_head? h) (by decide)
  have hr := afterAuthority_in_path hq hf
  have hrx : ∀ c ∈ (splitAuthority (splitScheme u.data).2).2 ++ '/' :: x.data, decide (c ∉ ['?', '#']) = true := by
    simp only [List.forall_mem_append, List.forall_mem_cons]
    refine ⟨hr, by decide, fun c hc => ?_⟩
    have := hx c hc
    simp_all
  simp only [parseUri, hdata, splitScheme_append_slash, splitAuthority_append_slash hs hm, span_of_all hr,
    span_of_all hrx, UriParts.mk.injEq, true_and]
  exact ⟨String.ext (by simp), trivial⟩

/-! ## Dot segments -/

/-- One segment against the segments kept so far: `..` drops the last one kept, `.` is
    dropped, and any other segment is kept. -/
def dotStep (kept : List String) (segment : String) : List String :=
  if segment = ".." then kept.dropLast else if segment = "." then kept else kept ++ [segment]

def splitRoot (path : String) : String × String :=
  if startswith path "/" then ("/", ⟨path.data.tail⟩) else ("", path)

/-- `remove_dot_segments` (RFC 3986, 5.2.4) over the path's `/`-separated segments, as HTTP
    clients normalise a request's path: the root `/` kept, `.` dropped, `..` dropping the
    segment kept before it, and a final `/` kept when the path ends in a dot segment. On a
    path that starts with `/`, the path of every URL with an authority, it is the RFC's
    algorithm. -/
def removeDotSegments (path : String) : String :=
  let segments := split (splitRoot path).2 '/'
  (splitRoot path).1 ++ join "/" (segments.foldl dotStep [] ++
    if segments.getLast? = some "." ∨ segments.getLast? = some ".." then [""] else [])

example : removeDotSegments "/a/b/.." = "/a/" ∧ removeDotSegments "/../a/./b" = "/a/b" := by
  decide

/-- Text a segment can follow: empty, or ending in `/`. -/
def EndsOpen (t : String) : Prop := t = "" ∨ ∃ s, t = s ++ "/"

theorem EndsOpen.append_slash (s : String) : EndsOpen (s ++ "/") := .inr ⟨s, rfl⟩

theorem EndsOpen.append {r n : String} (hr : EndsOpen r) (hn : EndsOpen n) : EndsOpen (r ++ n) := by
  rcases hn with rfl | ⟨m, rfl⟩
  · rwa [String.append_empty]
  · rw [← String.append_assoc]
    exact .append_slash _

theorem EndsOpen.split {t : String} (ht : EndsOpen t) :
    ∃ S, ∀ x : String, '/' ∉ x.data → DexProxy.Python.split (t ++ x) '/' = S ++ [x] := by
  rcases ht with rfl | ⟨s, rfl⟩
  · refine ⟨[], fun x hx => ?_⟩
    simp only [DexProxy.Python.split, String.empty_append, List.splitOn]
    rw [List.splitOnP_eq_single _ _ (fun y hy hyc => hx (by simpa [beq_iff_eq.mp hyc] using hy))]
    rfl
  · exact ⟨DexProxy.Python.split s '/', fun x hx => split_append_sep s hx⟩

theorem join_concat (sep : String) {K : List String} (hK : K ≠ []) (x : String) :
    join sep (K ++ [x]) = join sep K ++ sep ++ x := by
  induction K with
  | nil => exact absurd rfl hK
  | cons a K ih =>
    rcases K with _ | ⟨b, K⟩
    · rfl
    · rw [List.cons_append, join_cons (by simp), ih (by simp), join_cons (show b :: K ≠ [] by simp)]
      simp only [String.append_assoc]

theorem join_endsOpen (K : List String) : ∃ n, EndsOpen n ∧ ∀ x, join "/" (K ++ [x]) = n ++ x := by
  rcases K.eq_nil_or_concat with rfl | ⟨L, k, rfl⟩
  · exact ⟨"", .inl rfl, fun x => rfl⟩
  · rw [List.concat_eq_append]
    exact ⟨join "/" (L ++ [k]) ++ "/", .append_slash _, join_concat "/" (by simp)⟩

theorem splitRoot_append_segment (p : String) :
    ∃ root rest, EndsOpen root ∧ EndsOpen rest ∧ ∀ x, splitRoot (p ++ "/" ++ x) = (root, rest ++ x) := by
  have hd : ∀ x : String, (p ++ "/" ++ x).data = p.data ++ '/' :: x.data := by simp
  rcases hpd : p.data with _ | ⟨c, r⟩
  · refine ⟨"/", "", .append_slash "", .inl rfl, fun x => ?_⟩
    simp [splitRoot, startswith, hd, hpd]
  · by_cases hc : c = '/'
    · refine ⟨"/", ⟨r⟩ ++ "/", .append_slash "", .append_slash _, fun x => ?_⟩
      simp [splitRoot, startswith, hd, hpd, hc]
      exact String.ext (by simp)
    · refine ⟨"", p ++ "/", .inl rfl, .append_slash p, fun x => ?_⟩
      simp [splitRoot, startswith, hd, hpd, Ne.symm hc]

theorem foldl_dotStep_segment (S : List String) {x : String} (h1 : x ≠ ".") (h2 : x ≠ "..") :
    (S ++ [x]).foldl dotStep [] = S.foldl dotStep [] ++ [x] := by
  rw [List.foldl_append]
  simp [dotStep, h1, h2]

/-- Once dot segments are removed, a path followed by `/` and a segment that is neither `.`
    nor `..` ends in that segment, after segments that do not depend on it. -/
theorem removeDotSegments_append_segment (p : String) :
    ∃ S, ∀ x : String, '/' ∉ x.data → x ≠ "." → x ≠ ".." →
      DexProxy.Python.split (removeDotSegments (p ++ "/" ++ x)) '/' = S ++ [x] := by
  obtain ⟨root, rest, hroot, hrest, hsplit⟩ := splitRoot_append_segment p
  obtain ⟨S, hS⟩ := hrest.split
  obtain ⟨n, hn, hj⟩ := join_endsOpen (S.foldl dotStep [])
  obtain ⟨T, hT⟩ := (hroot.append hn).split
  refine ⟨T, fun x hx h1 h2 => ?_⟩
  simp only [removeDotSegments, hsplit, hS x hx, foldl_dotStep_segment S h1 h2, List.getLast?_concat,
    Option.some.injEq, h1, h2, or_self, if_false, List.append_nil, hj, ← String.append_assoc, hT x hx]

/-! ## Confinement -/

/-- The components of the URL of the operation on identifier `x`. -/
def IdOp.uriParts (api : HarborAPI) (op : IdOp) (x : String) : Except Exc UriParts :=
  (api.callArgs (op.call x)).map fun a => parseUri a.url

def UriParts.segments (p : UriParts) : List String := split p.path '/'

/-- The path's segments once its dot segments are removed. -/
def UriParts.resolvedSegments (p : UriParts) : List String := split (removeDotSegments p.path) '/'

/-- For any two non-empty identifiers, the URLs agree on scheme, authority and every path
    segment but the last, have the same query and fragment, and the last path segment
    determines the identifier. -/
def ConfinedToEndpoint (api : HarborAPI) (op : IdOp) : Prop :=
  ∀ x y px py, truthy x → truthy y → op.uriParts api x = .ok px → op.uriParts api y = .ok py →
    px.scheme = py.scheme ∧ px.authority = py.authority ∧ px.segments.dropLast = py.segments.dropLast ∧
      px.query = py.query ∧ px.fragment = py.fragment ∧ (px.segments.getLast? = py.segments.getLast? → x = y)

/-- A client as `test_harbor_api.py` builds one. -/
def testArgs : ClientArgs where
  restBase := "http://127.0.0.1"
  restApiPath := "/api/v1"
  apiKey := some "secret-key"
  xnodeBase := some "http://127.0.0.1"
  xnodeApiPath := "/xnode"

def testClient : HarborAPI := HarborAPI.new 0 testArgs

/-- `x` can stand as a path segment of its own: it is not empty, has no `/`, `?` or `#`, and
    is neither `.` nor `..`. -/
def segmentSafe (x : String) : Bool :=
  truthy x && x.data.all (· ∉ ['/', '?', '#']) && x != "." && x != ".."

theorem map_eq_ok_comp {ε α β γ : Type} {A : Except ε α} {u : α → β} {v : β} (h : A.map u = .ok v) (f : β → γ) :
    A.map (fun a => f (u a)) = .ok (f v) := by
  cases A <;> simp_all [Except.map]

theorem rstrip_of_not_mem {x chars : String} (h : ∀ c ∈ x.data, isIn chars c = false) : rstrip x chars = x :=
  String.ext (List.rdropWhile_eq_self_iff.mpr fun hne => by simp [h _ (List.getLast_mem hne)])

theorem composeUrl_endpoint_getLast (base apiPath : String) {e q : String} (hq : q = "/" ++ e)
    (he : lstrip e "/" = e) (he' : rstrip e "/" = e) (het : truthy e) :
    (composeUrl base apiPath (slashed q)).data.getLast? = e.data.getLast? := by
  have hs : slashed q = q := if_pos (by simp [hq, startswith])
  have hend : strip q "/" = e := by rw [hq, strip, lstrip_append_of_all (by decide), he, he']
  have hne : e.data ≠ [] := by simpa using het
  rw [hs, composeUrl_eq_front _ _ _ (by rwa [hend]), hend, show [e] = ["" ++ e] from rfl, join_append_last,
    String.data_append, List.getLast?_append_of_ne_nil _ hne]

theorem endpointArgs_url_getLast (api : HarborAPI) (op : IdOp) {e : SendArgs} (he : op.endpointArgs api = .ok e) :
    e.url.data.getLast? ≠ some '/' := by
  cases op with
  | getDepth depth =>
    cases he
    exact (composeUrl_endpoint_getLast _ _ (e := "depth") (by decide) (by decide) (by decide) (by decide)).trans_ne
      (by decide)
  | getWithdraw =>
    cases he
    exact (composeUrl_endpoint_getLast _ _ (e := "withdraw") (by decide) (by decide) (by decide) (by decide)).trans_ne
      (by decide)
  | getTxDetails =>
    simp only [IdOp.endpointArgs, HarborAPI.requestXnodeArgs] at he
    split at he
    · cases he
    · cases he
      exact (composeUrl_endpoint_getLast _ _ (e := "tx/details") (by decide) (by decide) (by decide)
        (by decide)).trans_ne (by decide)

end DexProxy.HarborConnector
