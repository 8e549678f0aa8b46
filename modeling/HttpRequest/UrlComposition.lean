import HttpRequest.Model.Url

/-! # Parsing a URL undoes composing it

A URL is composed from a scheme and a host and, each behind or in front of its own mark, the optional
user information, port, path, query and fragment (`UrlParts.compose`). `UrlParts.read` is what the
parts mean to a reader, who fills in an absent path and an absent port. The parser returns that reading
for all parts in which it finds every mark where the composition put it (`parse_compose_of_separated`),
among them all parts in which no mark is mistaken for another (`parse_compose`); and every string it
accepts is composed from parts of the first kind, in one way (`exists_separated`). -/

namespace HttpRequest

open Foundations

/-! ### Composition -/

/-- The components of a URL; an option is `none` where the component is absent together with its mark. -/
structure UrlParts where
  scheme : Bytes
  userInfo : Option Bytes
  host : Bytes
  port : Option Bytes
  path : Option Bytes
  query : Option Bytes
  fragment : Option Bytes

/-- A component behind its mark. -/
def behindMark (mark : Char) : Option Bytes → Bytes
  | none => []
  | some component => mark.toUInt8 :: component

/-- A component in front of its mark. -/
def beforeMark (mark : Char) : Option Bytes → Bytes
  | none => []
  | some component => component ++ [mark.toUInt8]

namespace UrlParts

/-- The URL made of the components. -/
def compose (parts : UrlParts) : Bytes :=
  parts.scheme ++ kUrlFlag ++ (beforeMark '@' parts.userInfo ++ parts.host ++
    behindMark ':' parts.port ++ parts.path.getD [] ++ behindMark '?' parts.query ++
    behindMark '#' parts.fragment)

/-- What the components read as: an absent path is the root, an absent port the one of the scheme. -/
def read (parts : UrlParts) : Url :=
  { scheme := parts.scheme
    host := parts.host
    port := parts.port.getD (if parts.scheme = bytes "https" then bytes "443" else bytes "80")
    path := parts.path.getD (bytes "/")
    userInfo := parts.userInfo.getD []
    query := parts.query.getD []
    fragment := parts.fragment.getD []
    isValid_ := true }

/-- No byte of the text is one of the marks. -/
def Free (marks : List Char) (text : Bytes) : Prop := ∀ mark ∈ marks, mark.toUInt8 ∉ text

instance (marks : List Char) (text : Bytes) : Decidable (Free marks text) :=
  List.decidableBAll _ marks

/-- A host in brackets, as for an IPv6 literal. -/
def BracketedHost (host : Bytes) : Prop :=
  ∃ x, host = '['.toUInt8 :: x ++ [']'.toUInt8] ∧ Free [']', '/', '?', '#', '@'] x

/-- A host without a colon that does not start with a bracket. -/
def PlainHost (host : Bytes) : Prop :=
  Free [':', '/', '?', '#', '@'] host ∧ host.head? ≠ some '['.toUInt8

/-- No mark is mistaken for another. -/
structure WellFormed (parts : UrlParts) : Prop where
  /-- The scheme is made of letters, digits and hyphens. -/
  scheme : parts.scheme ≠ [] ∧ ∀ c ∈ parts.scheme, c = '-'.toUInt8 ∨ isalnum c
  /-- User information is not empty and free of the marks around it. -/
  userInfo : ∀ text, parts.userInfo = some text → text ≠ [] ∧ Free ['/', '?', '#', '@'] text
  /-- The host is bracketed or plain. -/
  host : BracketedHost parts.host ∨ PlainHost parts.host
  /-- The port is free of the marks around it. -/
  port : ∀ text, parts.port = some text → Free [':', '/', '?', '#', '@'] text
  /-- The path starts with a slash and is free of the marks behind it. -/
  path : ∀ text, parts.path = some text → text.head? = some '/'.toUInt8 ∧ Free ['?', '#'] text
  /-- The query is not empty and free of the mark behind it. -/
  query : ∀ text, parts.query = some text → text ≠ [] ∧ Free ['#'] text

/-- The host ends where the parser looks for its end: in front of the last colon, unless the host starts
with a bracket that is not closed in front of that colon. -/
def EndsHost (host : Bytes) : Option Bytes → Prop
  | some port => ':'.toUInt8 ∉ port ∧ (host.head? ≠ some '['.toUInt8 ∨ ']'.toUInt8 ∈ host)
  | none => ':'.toUInt8 ∉ host ∨ host.head? = some '['.toUInt8 ∧
      ∀ x y, host = x ++ ':'.toUInt8 :: y → ':'.toUInt8 ∉ y → ']'.toUInt8 ∉ x

/-- The parser finds every mark where the composition put it. -/
structure Separated (parts : UrlParts) : Prop where
  /-- The scheme is one that is accepted. -/
  scheme : checkScheme parts.scheme = true
  /-- User information ends at the first `@`. -/
  userInfo : ∀ text, parts.userInfo = some text → Free ['/', '?', '#', '@'] text
  /-- Without user information there is no `@`. -/
  noUserInfo : parts.userInfo = none → '@'.toUInt8 ∉ parts.host ++ behindMark ':' parts.port
  /-- The authority ends at the first mark of what follows it. -/
  authority : Free ['/', '?', '#'] (parts.host ++ behindMark ':' parts.port)
  /-- The host ends at the port. -/
  host : EndsHost parts.host parts.port
  /-- The path starts with a slash and ends at the first mark behind it. -/
  path : ∀ text, parts.path = some text → text.head? = some '/'.toUInt8 ∧ Free ['?', '#'] text
  /-- The query ends at the first mark behind it. -/
  query : ∀ text, parts.query = some text → '#'.toUInt8 ∉ text

end UrlParts

/-! ### The steps of the parser

For each step, what it returns on a composed view, and that every view is composed that way. -/

namespace Url

/-- A fragment is taken off at the first mark. -/
theorem parseFragment_behindMark {front : Bytes} (h : '#'.toUInt8 ∉ front)
    (fragment : Option Bytes) :
    parseFragment (front ++ behindMark '#' fragment) = (fragment.getD [], front) := by
  cases fragment with
  | none => simp [parseFragment, findChar, behindMark, List.idxOf?_eq_none_iff.mpr h]
  | some text => simp [parseFragment, findChar, behindMark, idxOf?_append_of_not_mem h]

/-- Every text is a front and a fragment, as `parseFragment` takes them apart. -/
theorem exists_parseFragment (view : Bytes) :
    ∃ (fragment : Option Bytes) (front : Bytes), view = front ++ behindMark '#' fragment ∧
      '#'.toUInt8 ∉ front ∧ parseFragment view = (fragment.getD [], front) := by
  cases hpos : findChar '#' view with
  | none =>
    exact ⟨none, view, by simp [behindMark], List.idxOf?_eq_none_iff.mp hpos,
      by simp [parseFragment, hpos]⟩
  | some pos =>
    obtain ⟨hview, hfree⟩ := eq_take_cons_drop_of_idxOf? hpos
    exact ⟨some (view.drop (pos + 1)), view.take pos, hview, hfree, by simp [parseFragment, hpos]⟩

/-- A query is taken off at the first mark. -/
theorem parseQuery_behindMark {front : Bytes} (h : '?'.toUInt8 ∉ front) (query : Option Bytes) :
    parseQuery (front ++ behindMark '?' query) = (query.getD [], front) := by
  cases query with
  | none => simp [parseQuery, findChar, behindMark, List.idxOf?_eq_none_iff.mpr h]
  | some text => simp [parseQuery, findChar, behindMark, idxOf?_append_of_not_mem h]

/-- Every text is a front and a query, as `parseQuery` takes them apart. -/
theorem exists_parseQuery (view : Bytes) :
    ∃ (query : Option Bytes) (front : Bytes), view = front ++ behindMark '?' query ∧
      '?'.toUInt8 ∉ front ∧ parseQuery view = (query.getD [], front) := by
  cases hpos : findChar '?' view with
  | none =>
    exact ⟨none, view, by simp [behindMark], List.idxOf?_eq_none_iff.mp hpos,
      by simp [parseQuery, hpos]⟩
  | some pos =>
    obtain ⟨hview, hfree⟩ := eq_take_cons_drop_of_idxOf? hpos
    exact ⟨some (view.drop (pos + 1)), view.take pos, hview, hfree, by simp [parseQuery, hpos]⟩

/-- A path is taken off at the first slash. -/
theorem parsePath_append {front : Bytes} (h : '/'.toUInt8 ∉ front) {path : Option Bytes}
    (hpath : ∀ text, path = some text → text.head? = some '/'.toUInt8) :
    parsePath (front ++ path.getD []) = (path.getD (bytes "/"), front) := by
  cases path with
  | none => simp [parsePath, findChar, List.idxOf?_eq_none_iff.mpr h]
  | some text =>
    obtain ⟨rest, rfl⟩ := List.head?_eq_some_iff.mp (hpath text rfl)
    simp [parsePath, findChar, idxOf?_append_of_not_mem h]

/-- Every text is a front and a path, as `parsePath` takes them apart. -/
theorem exists_parsePath (view : Bytes) :
    ∃ (path : Option Bytes) (front : Bytes), view = front ++ path.getD [] ∧
      (∀ text, path = some text → text.head? = some '/'.toUInt8) ∧ '/'.toUInt8 ∉ front ∧
      parsePath view = (path.getD (bytes "/"), front) := by
  cases hpos : findChar '/' view with
  | none =>
    exact ⟨none, view, by simp, fun _ h => (by cases h), List.idxOf?_eq_none_iff.mp hpos,
      by simp [parsePath, hpos]⟩
  | some pos =>
    obtain ⟨hview, hfree⟩ := eq_take_cons_drop_of_idxOf? hpos
    have hdrop : view.drop pos = '/'.toUInt8 :: view.drop (pos + 1) :=
      List.append_cancel_left ((List.take_append_drop pos view).trans hview)
    refine ⟨some (view.drop pos), view.take pos, by simp, ?_, hfree, by simp [parsePath, hpos]⟩
    rintro _ ⟨⟩
    rw [hdrop]
    rfl

/-- User information is taken off at the first mark. -/
theorem parseUserInfo_beforeMark {userInfo : Option Bytes} {rest : Bytes}
    (h : ∀ text, userInfo = some text → '@'.toUInt8 ∉ text)
    (hrest : userInfo = none → '@'.toUInt8 ∉ rest) :
    parseUserInfo (beforeMark '@' userInfo ++ rest) = (userInfo.getD [], rest) := by
  cases userInfo with
  | none => simp [parseUserInfo, findChar, beforeMark, List.idxOf?_eq_none_iff.mpr (hrest rfl)]
  | some text =>
    simp [parseUserInfo, findChar, beforeMark, idxOf?_append_of_not_mem (h text rfl)]

/-- Every text is user information and a rest, as `parseUserInfo` takes them apart. -/
theorem exists_parseUserInfo (view : Bytes) :
    ∃ (userInfo : Option Bytes) (rest : Bytes), view = beforeMark '@' userInfo ++ rest ∧
      (∀ text, userInfo = some text → '@'.toUInt8 ∉ text) ∧
      (userInfo = none → '@'.toUInt8 ∉ rest) ∧ parseUserInfo view = (userInfo.getD [], rest) := by
  cases hpos : findChar '@' view with
  | none =>
    exact ⟨none, view, by simp [beforeMark], fun _ h => (by cases h),
      fun _ => List.idxOf?_eq_none_iff.mp hpos, by simp [parseUserInfo, hpos]⟩
  | some pos =>
    obtain ⟨hview, hfree⟩ := eq_take_cons_drop_of_idxOf? hpos
    refine ⟨some (view.take pos), view.drop (pos + 1), ?_, ?_, fun h => (by cases h),
      by simp [parseUserInfo, hpos]⟩
    · rw [beforeMark, List.append_assoc, List.singleton_append]
      exact hview
    · rintro _ ⟨⟩
      exact hfree

/-- The default ports are those of the composition. -/
theorem defaultPort_eq (scheme : Bytes) :
    defaultPort scheme = if scheme = bytes "https" then bytes "443" else bytes "80" := by
  have hne : bytes "http" ≠ bytes "https" := by decide
  by_cases hhttp : scheme = bytes "http"
  · simp [defaultPort, kHttp, kHttpDefaultPort, hhttp, hne]
  · simp [defaultPort, kHttp, kHttps, kHttpDefaultPort, kHttpsDefaultPort, hhttp]

/-- The search for the closing bracket says whether there is one in front of a position. -/
theorem closesBefore_iff {view : Bytes} {pos : Nat} :
    closesBefore view pos = true ↔ ']'.toUInt8 ∈ view.take pos := by
  cases hpos : findChar ']' view with
  | none =>
    have hfree : ']'.toUInt8 ∉ view := List.idxOf?_eq_none_iff.mp hpos
    simp only [closesBefore, hpos, Bool.false_eq_true, false_iff]
    exact fun hmem => hfree (List.mem_of_mem_take hmem)
  | some k =>
    obtain ⟨hview, hfree⟩ := eq_take_cons_drop_of_idxOf? hpos
    simp only [closesBefore, hpos, decide_eq_true_eq]
    constructor
    · intro hlt
      have hlen : (view.take k ++ [']'.toUInt8]).length ≤ pos := by simp; omega
      rw [hview, List.append_cons, List.take_append]
      rw [List.take_of_length_le hlen]
      simp
    · intro hmem
      by_contra hle
      rw [← Nat.min_eq_left (Nat.le_of_not_lt hle), ← List.take_take] at hmem
      exact hfree (List.mem_of_mem_take hmem)

/-- A host and a port that are separated are returned as they are. -/
theorem parsePort_behindMark {host : Bytes} (scheme : Bytes) {port : Option Bytes}
    (h : UrlParts.EndsHost host port) :
    parsePort scheme (host ++ behindMark ':' port) = (port.getD (defaultPort scheme), host) := by
  cases port with
  | none =>
    rw [behindMark, List.append_nil, parsePort]
    cases hpos : rfindChar ':' host with
    | none => rfl
    -- a colon without a port stands inside the brackets
    | some pos =>
      obtain ⟨hsplit, hfree⟩ := eq_take_cons_drop_of_lastIdxOf? hpos
      rcases h with hcolon | ⟨hhead, hopen⟩
      · rw [rfindChar, lastIdxOf?_eq_none.mpr hcolon] at hpos
        cases hpos
      · have hclose := mt closesBefore_iff.mp (hopen _ _ hsplit hfree)
        exact if_neg (not_or.mpr ⟨not_not.mpr hhead, hclose⟩)
  | some text =>
    obtain ⟨hfree, hbracket⟩ := h
    have hpos : rfindChar ':' (host ++ ':'.toUInt8 :: text) = some host.length :=
      lastIdxOf?_append_of_not_mem hfree
    have hcond : (host ++ ':'.toUInt8 :: text).head? ≠ some '['.toUInt8 ∨
        closesBefore (host ++ ':'.toUInt8 :: text) host.length = true := by
      rw [closesBefore_iff, List.take_left]
      refine hbracket.imp_left fun hhead => ?_
      cases host with
      | nil => rw [List.nil_append, List.head?_cons]; decide
      | cons c host => exact hhead
    rw [behindMark, parsePort, hpos]
    simp only [if_pos hcond, List.take_left]
    rw [List.drop_length_add_append, List.drop_one, List.tail_cons, Option.getD_some]

/-- Every text is a host and a port, as `parsePort` takes them apart. -/
theorem exists_parsePort (scheme view : Bytes) :
    ∃ (port : Option Bytes) (host : Bytes), view = host ++ behindMark ':' port ∧
      UrlParts.EndsHost host port ∧ parsePort scheme view = (port.getD (defaultPort scheme), host) := by
  cases hpos : rfindChar ':' view with
  | none =>
    exact ⟨none, view, by simp [behindMark], .inl (lastIdxOf?_eq_none.mp hpos),
      by simp [parsePort, hpos]⟩
  | some pos =>
    obtain ⟨hview, hfree⟩ := eq_take_cons_drop_of_lastIdxOf? hpos
    -- the condition of the source is the one of `EndsHost`
    by_cases hcond : view.head? ≠ some '['.toUInt8 ∨ closesBefore view pos = true
    · refine ⟨some (view.drop (pos + 1)), view.take pos, hview, ⟨hfree, ?_⟩, ?_⟩
      · rw [closesBefore_iff] at hcond
        refine hcond.imp_left fun hhead => ?_
        cases pos with
        | zero => simp
        | succ pos => rwa [List.head?_take, if_neg (Nat.succ_ne_zero pos)]
      · rw [parsePort, hpos]
        simp only [if_pos hcond, Option.getD_some]
    · rw [not_or, not_not, closesBefore_iff] at hcond
      refine ⟨none, view, by simp [behindMark], .inr ⟨hcond.1, fun x y hxy hy => ?_⟩, ?_⟩
      · -- the last colon splits the view in one way only
        have hlast : rfindChar ':' view = some x.length := by
          rw [hxy]
          exact lastIdxOf?_append_of_not_mem hy
        obtain rfl : pos = x.length := Option.some.inj (hpos.symm.trans hlast)
        rw [hxy, List.take_left] at hcond
        exact hcond.2
      · rw [parsePort, hpos]
        simp only [closesBefore_iff, hcond, ne_eq, not_true_eq_false, or_self, if_false,
          Option.getD_none]

/-- A host that is bracketed or plain ends where the parser looks for its end. -/
theorem endsHost_of_bracketed_or_plain {host : Bytes}
    (h : UrlParts.BracketedHost host ∨ UrlParts.PlainHost host) {port : Option Bytes}
    (hport : ∀ text, port = some text → ':'.toUInt8 ∉ text) : UrlParts.EndsHost host port := by
  rcases h with ⟨x, rfl, hx⟩ | ⟨hfree, hhead⟩
  · cases port with
    | some text => exact ⟨hport text rfl, .inr (by simp)⟩
    | none =>
      refine .inr ⟨rfl, fun a b hab _ hmem => ?_⟩
      -- what stands in front of a colon stands in front of the closing bracket
      have hfront : a <+: '['.toUInt8 :: x := by
        have hlast : a ++ ':'.toUInt8 :: b ≠ [] := by simp
        have hpre : a <+: '['.toUInt8 :: x ++ [']'.toUInt8] := ⟨_, hab.symm⟩
        rw [List.prefix_concat_iff] at hpre
        rcases hpre with rfl | hpre
        · have hlen := congrArg List.length hab
          simp at hlen
        · exact hpre
      rcases List.mem_cons.mp (hfront.subset hmem) with hbracket | hinside
      · exact absurd hbracket (by decide)
      · exact hx ']' (by simp) hinside
  · cases port with
    | some text => exact ⟨hport text rfl, .inl hhead⟩
    | none => exact .inl (hfree ':' (by simp))

/-! ### Both directions -/

/-- `://` does not occur in front of the one that ends the scheme. -/
theorem find_kUrlFlag {scheme rest : Bytes} (h : ':'.toUInt8 ∉ scheme) :
    find kUrlFlag (scheme ++ kUrlFlag ++ rest) = some scheme.length :=
  find_of_dropInfix? (dropInfix?_of_not_mem (c := ':'.toUInt8) h)

/-- What `parse` returns when the scheme is accepted and the steps return the components. -/
theorem parse_of_steps {scheme view : Bytes} (hcolon : ':'.toUInt8 ∉ scheme)
    (hscheme : checkScheme scheme = true) :
    parse (scheme ++ kUrlFlag ++ view) =
      let (fragment, view) := parseFragment view
      let (query, view) := parseQuery view
      let (path, view) := parsePath view
      let (userInfo, view) := parseUserInfo view
      let (port, host) := parsePort scheme view
      { scheme, host, port, path, userInfo, query, fragment, isValid_ := true } := by
  have htake : (scheme ++ kUrlFlag ++ view).take scheme.length = scheme := by
    rw [List.append_assoc, List.take_left]
  have hdrop : (scheme ++ kUrlFlag ++ view).drop (scheme.length + kUrlFlag.length) = view := by
    rw [← List.length_append, List.drop_left]
  rw [parse, find_kUrlFlag hcolon]
  simp only [htake, hdrop, if_pos hscheme]

/-- A mark is free of the marks it is not. -/
theorem mark_not_mem_behindMark {mark mark' : Char} (h : mark.toUInt8 ≠ mark'.toUInt8)
    {component : Option Bytes} (hfree : ∀ text, component = some text → mark.toUInt8 ∉ text) :
    mark.toUInt8 ∉ behindMark mark' component := by
  cases component with
  | none => exact List.not_mem_nil
  | some text =>
    rw [behindMark, List.mem_cons, not_or]
    exact ⟨h, hfree text rfl⟩

/-- Another mark does not get into a component that is free of it. -/
theorem mark_not_mem_beforeMark {mark mark' : Char} (h : mark.toUInt8 ≠ mark'.toUInt8)
    {component : Option Bytes} (hfree : ∀ text, component = some text → mark.toUInt8 ∉ text) :
    mark.toUInt8 ∉ beforeMark mark' component := by
  cases component with
  | none => exact List.not_mem_nil
  | some text =>
    rw [beforeMark, List.mem_append, List.mem_singleton, not_or]
    exact ⟨hfree text rfl, h⟩

/-- A scheme that is accepted has no colon. -/
theorem colon_not_mem_scheme {scheme : Bytes} (h : checkScheme scheme = true) :
    ':'.toUInt8 ∉ scheme := by
  intro hmem
  rw [checkScheme, Bool.and_eq_true, List.all_eq_true] at h
  exact absurd (h.2 _ hmem) (by decide)

/-- Parsing a composed URL returns what its parts read as, if they are separated. -/
theorem parse_compose_of_separated {parts : UrlParts} (h : parts.Separated) :
    parse parts.compose = parts.read := by
  have hauthority {mark : Char} (hmark : mark ∈ ['/', '?', '#']) :
      mark.toUInt8 ∉ beforeMark '@' parts.userInfo ++ (parts.host ++ behindMark ':' parts.port) := by
    rw [List.mem_append, not_or]
    refine ⟨mark_not_mem_beforeMark ?_ fun text htext => ?_, h.authority mark hmark⟩
    · fin_cases hmark <;> decide
    · exact h.userInfo text htext mark (List.mem_append_left ['@'] hmark)
  have hpath {mark : Char} (hmark : mark ∈ ['?', '#']) : mark.toUInt8 ∉ parts.path.getD [] := by
    cases hp : parts.path with
    | none => exact List.not_mem_nil
    | some text => exact (h.path text hp).2 mark hmark
  have hquery : '#'.toUInt8 ∉ behindMark '?' parts.query :=
    mark_not_mem_behindMark (by decide) h.query
  -- each step finds its mark behind a front that is free of it
  have hfront : '#'.toUInt8 ∉ beforeMark '@' parts.userInfo ++ (parts.host ++
      behindMark ':' parts.port) ++ parts.path.getD [] ++ behindMark '?' parts.query := by
    simp only [List.mem_append, not_or] at hauthority ⊢
    exact ⟨⟨hauthority (by simp), hpath (by simp)⟩, hquery⟩
  have hfragment := parseFragment_behindMark hfront parts.fragment
  have hfront' : '?'.toUInt8 ∉ beforeMark '@' parts.userInfo ++ (parts.host ++
      behindMark ':' parts.port) ++ parts.path.getD [] := by
    simp only [List.mem_append, not_or] at hauthority ⊢
    exact ⟨hauthority (by simp), hpath (by simp)⟩
  have hq := parseQuery_behindMark hfront' parts.query
  have hslash : '/'.toUInt8 ∉ beforeMark '@' parts.userInfo ++ (parts.host ++
      behindMark ':' parts.port) := hauthority (by simp)
  have hp := parsePath_append hslash fun text htext => (h.path text htext).1
  have hu := parseUserInfo_beforeMark (fun text htext => h.userInfo text htext '@' (by simp))
    h.noUserInfo
  have hport := parsePort_behindMark parts.scheme h.host
  have hcompose : parts.compose = parts.scheme ++ kUrlFlag ++ (beforeMark '@' parts.userInfo ++
      (parts.host ++ behindMark ':' parts.port) ++ parts.path.getD [] ++ behindMark '?' parts.query ++
      behindMark '#' parts.fragment) := by
    simp only [UrlParts.compose, List.append_assoc]
  rw [hcompose, parse_of_steps (colon_not_mem_scheme h.scheme) h.scheme]
  simp only [hfragment, hq, hp, hu, hport, UrlParts.read, defaultPort_eq]

/-- Where no mark is mistaken for another, the parser finds every mark. -/
theorem separated_of_wellFormed {parts : UrlParts} (h : parts.WellFormed) : parts.Separated := by
  have hhost : ∀ mark ∈ ['/', '?', '#', '@'], mark.toUInt8 ∉ parts.host := by
    intro mark hmark
    rcases h.host with ⟨x, hx, hfree⟩ | ⟨hfree, -⟩
    · have hxfree := hfree mark (List.mem_cons_of_mem _ hmark)
      have hbrackets : ∀ mark ∈ ['/', '?', '#', '@'],
          mark.toUInt8 ≠ '['.toUInt8 ∧ mark.toUInt8 ≠ ']'.toUInt8 := by
        intro mark hmark
        fin_cases hmark <;> decide
      rw [hx]
      simpa [hbrackets mark hmark] using hxfree
    · exact hfree mark (List.mem_cons_of_mem _ hmark)
  have hport : ∀ mark ∈ ['/', '?', '#', '@'], mark.toUInt8 ∉ behindMark ':' parts.port := by
    intro mark hmark
    refine mark_not_mem_behindMark ?_ fun text htext =>
      h.port text htext mark (List.mem_cons_of_mem _ hmark)
    fin_cases hmark <;> decide
  have hauthority : ∀ mark ∈ ['/', '?', '#', '@'],
      mark.toUInt8 ∉ parts.host ++ behindMark ':' parts.port := by
    intro mark hmark
    rw [List.mem_append, not_or]
    exact ⟨hhost mark hmark, hport mark hmark⟩
  refine ⟨?_, fun text htext => (h.userInfo text htext).2, fun _ => hauthority '@' (by simp),
    fun mark hmark => hauthority mark (List.mem_append_left ['@'] hmark), ?_, h.path,
    fun text htext => (h.query text htext).2 '#' (by simp)⟩
  · obtain ⟨hne, hchars⟩ := h.scheme
    rw [checkScheme, Bool.and_eq_true, List.all_eq_true]
    exact ⟨by simpa using hne, fun c hc => by simpa using hchars c hc⟩
  · exact endsHost_of_bracketed_or_plain h.host fun text htext => h.port text htext ':' (by simp)

/-- Parsing a composed URL returns what its parts read as. -/
theorem parse_compose {parts : UrlParts} (h : parts.WellFormed) :
    parse parts.compose = parts.read := parse_compose_of_separated (separated_of_wellFormed h)

/-- **A string the parser accepts is composed from separated parts that read as what it returns.** -/
theorem exists_separated {url : Bytes} (h : (parse url).isValid = true) :
    ∃ parts : UrlParts, parts.Separated ∧ parts.compose = url ∧ parts.read = parse url := by
  cases hpos : find kUrlFlag url with
  | none => simp [parse, hpos, isValid] at h
  | some pos =>
    by_cases hscheme : checkScheme (url.take pos) = true
    · obtain ⟨fragment, front₁, hview₁, hfree₁, hstep₁⟩ :=
        exists_parseFragment (url.drop (pos + kUrlFlag.length))
      obtain ⟨query, front₂, hview₂, hfree₂, hstep₂⟩ := exists_parseQuery front₁
      obtain ⟨path, front₃, hview₃, hpath, hfree₃, hstep₃⟩ := exists_parsePath front₂
      obtain ⟨userInfo, rest, hview₄, huser, hnoUser, hstep₄⟩ := exists_parseUserInfo front₃
      obtain ⟨port, host, hview₅, hhost, hstep₅⟩ := exists_parsePort (url.take pos) rest
      -- what a front is free of, its parts are free of
      have hfront₃ : UrlParts.Free ['/', '?', '#'] front₃ := by
        rw [hview₂, hview₃] at hfree₁
        rw [hview₃] at hfree₂
        simp only [List.mem_append, not_or] at hfree₁ hfree₂
        intro mark hmark
        fin_cases hmark
        · exact hfree₃
        · exact hfree₂.1
        · exact hfree₁.1.1
      rw [hview₄, hview₅] at hfront₃
      refine ⟨⟨url.take pos, userInfo, host, port, path, query, fragment⟩,
        ⟨hscheme, fun text htext mark hmark => ?_, fun hnone => hview₅ ▸ hnoUser hnone,
          fun mark hmark => fun hmem => hfront₃ mark hmark (List.mem_append_right _ hmem), hhost,
          fun text htext => ⟨hpath text htext, fun mark hmark => ?_⟩, fun text htext => ?_⟩, ?_, ?_⟩
      · obtain rfl : userInfo = some text := htext
        rcases List.mem_append.mp (show mark ∈ ['/', '?', '#'] ++ ['@'] from hmark) with hmark | hmark
        · exact fun hmem => hfront₃ mark hmark (by simp [beforeMark, hmem])
        · rw [List.mem_singleton.mp hmark]
          exact huser text rfl
      · obtain rfl : path = some text := htext
        rw [hview₂, hview₃] at hfree₁
        rw [hview₃] at hfree₂
        simp only [List.mem_append, not_or, Option.getD_some] at hfree₁ hfree₂
        fin_cases hmark
        · exact hfree₂.2
        · exact hfree₁.1.2
      · obtain rfl : query = some text := htext
        rw [hview₂] at hfree₁
        simp only [List.mem_append, behindMark, List.mem_cons, not_or] at hfree₁
        exact hfree₁.2.2
      · conv_rhs => rw [eq_append_of_find hpos, hview₁, hview₂, hview₃, hview₄, hview₅]
        simp only [UrlParts.compose, List.append_assoc]
      · rw [parse, hpos]
        simp only [if_pos hscheme, hstep₁, hstep₂, hstep₃, hstep₄, hstep₅, UrlParts.read,
          defaultPort_eq]
    · simp [parse, hpos, if_neg hscheme, isValid] at h

/-- **Parsing is the inverse of composition.** Well-formed parts are returned by the parser as they
read, as a valid URL; and whatever string is valid is composed from parts that read as the parser's
result, so that none of its bytes is lost, repeated or moved. -/
theorem parse_inverse_compose :
    (∀ parts : UrlParts, parts.WellFormed →
      parse parts.compose = parts.read ∧ (parse parts.compose).isValid = true) ∧
    ∀ url : Bytes, (parse url).isValid = true →
      ∃ parts : UrlParts, parts.compose = url ∧ parts.read = parse url := by
  refine ⟨fun parts h => ?_, fun url h => ?_⟩
  · rw [parse_compose h]
    exact ⟨rfl, rfl⟩
  · obtain ⟨parts, -, hcompose, hread⟩ := exists_separated h
    exact ⟨parts, hcompose, hread⟩

end Url

end HttpRequest
