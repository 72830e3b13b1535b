import SyncBoard.Client.MarkdownViewer

/-!
# What the Markdown preview shows of a text

The parts of a line, each between its delimiters, are the line again; the delimiters that go
are those of the leftmost and shortest bold texts, codes and links. The lines of a document
fall into blocks, a line or a closed code block each, which the elements show in order, up to
an opening fence that is not closed.
-/

namespace SyncBoard.Client.MarkdownViewer

open Backtracking
open Workspace (trim)

section Strings
variable {s t u : JsString}

@[simp] theorem startsWith_append (s t : JsString) : startsWith (s ++ t) s = true :=
  List.isPrefixOf_iff_prefix.mpr (List.prefix_append s t)

@[simp] theorem endsWith_append (s t : JsString) : endsWith (t ++ s) s = true :=
  List.isSuffixOf_iff_suffix.mpr (List.suffix_append t s)

theorem eq_append_drop (h : startsWith t s = true) : t = s ++ t.drop s.length := by
  obtain ⟨u, rfl⟩ := List.isPrefixOf_iff_prefix.mp h
  rw [List.drop_left]

/-- The middle of three parts. -/
theorem drop_take_middle (s t u : JsString) :
    ((s ++ t ++ u).take (s.length + t.length)).drop s.length = t := by
  have htake : (s ++ t ++ u).take (s.length + t.length) = s ++ t := by
    rw [← List.length_append, List.take_left]
  rw [htake, List.drop_left]

theorem slice_middle (s t u : JsString) : slice (s ++ t ++ u) s.length u.length = t := by
  have hend : (s ++ t ++ u).length - u.length = s.length + t.length := by
    simp only [List.length_append]
    omega
  rw [slice, hend, drop_take_middle]

theorem substring_middle (s t u : JsString) :
    substring (s ++ t ++ u) s.length (s.length + t.length) = t := by
  rw [substring, Nat.max_eq_right (Nat.le_add_right _ _), Nat.min_eq_left (Nat.le_add_right _ _),
    drop_take_middle]

/-- The index at which a string occurs is that of some occurrence. -/
theorem indexOf_eq_some {i : Nat} (h : indexOf s t = some i) :
    ∃ before after, t = before ++ s ++ after ∧ before.length = i := by
  induction t generalizing i with
  | nil =>
      rw [indexOf] at h
      split at h
      · next hstart =>
          obtain rfl : 0 = i := Option.some.inj h
          exact ⟨[], [], by simpa using eq_append_drop hstart, rfl⟩
      · cases h
  | cons c t ih =>
      rw [indexOf] at h
      split at h
      · next hstart =>
          obtain rfl : 0 = i := Option.some.inj h
          exact ⟨[], _, eq_append_drop hstart, rfl⟩
      · obtain ⟨j, hj, rfl⟩ := Option.map_eq_some_iff.mp h
        obtain ⟨before, after, rfl, rfl⟩ := ih hj
        exact ⟨c :: before, after, rfl, rfl⟩

theorem exists_indexOf (s t u : JsString) : ∃ i, indexOf s (t ++ s ++ u) = some i := by
  induction t with
  | nil =>
      refine ⟨0, ?_⟩
      have hstart := startsWith_append s u
      rw [List.nil_append]
      cases hsu : s ++ u with
      | nil =>
          rw [hsu] at hstart
          rw [indexOf, if_pos hstart]
      | cons c rest =>
          rw [hsu] at hstart
          rw [indexOf, if_pos hstart]
  | cons c t ih =>
      obtain ⟨i, hi⟩ := ih
      rw [List.cons_append, List.cons_append, indexOf]
      split
      · exact ⟨0, rfl⟩
      · exact ⟨i + 1, by rw [hi, Option.map_some]⟩

end Strings

theorem tokenPart_strong (index : Nat) (body : JsString) :
    tokenPart index (js "**" ++ body ++ js "**") = some (.strong index body) := by
  have hslice : slice (js "**" ++ body ++ js "**") 2 2 = body :=
    slice_middle (js "**") body (js "**")
  have hstart : startsWith (js "**" ++ body ++ js "**") (js "**") = true := by
    rw [List.append_assoc, startsWith_append]
  rw [tokenPart, hstart, endsWith_append, hslice]
  rfl

theorem tokenPart_code (index : Nat) (body : JsString) :
    tokenPart index (js "`" ++ body ++ js "`") = some (.code index body) := by
  have hslice : slice (js "`" ++ body ++ js "`") 1 1 = body := slice_middle (js "`") body (js "`")
  have hstart : startsWith (js "`" ++ body ++ js "`") (js "`") = true := by
    rw [List.append_assoc, startsWith_append]
  have hother : startsWith (js "`" ++ body ++ js "`") (js "**") = false := rfl
  rw [tokenPart, hother, hstart, endsWith_append, hslice]
  rfl

/-- The text from `[` to `)` around the first `](` in it. -/
theorem exists_link_parts {i : Nat} {label url : JsString}
    (h : indexOf (js "](") (js "[" ++ label ++ js "](" ++ url ++ js ")") = some i) :
    ∃ shown href, js "[" ++ label ++ js "](" ++ url ++ js ")" =
      js "[" ++ shown ++ js "](" ++ href ++ js ")" ∧ i = shown.length + 1 := by
  obtain ⟨before, after, htoken, hlength⟩ := indexOf_eq_some h
  cases before with
  | nil => cases htoken
  | cons c shown =>
      obtain rfl : c = 91 := (List.cons.inj htoken).1.symm
      rcases List.eq_nil_or_concat' after with rfl | ⟨href, d, rfl⟩
      · -- the token ends in `)`, so something follows the `](`
        rw [List.append_nil] at htoken
        have hends : js "[" ++ label ++ js "](" ++ url ++ [41] = (91 :: shown ++ [93]) ++ [40] := by
          rw [List.append_assoc (91 :: shown)]
          exact htoken
        cases (List.append_inj' hends rfl).2
      · have hends : js "[" ++ label ++ js "](" ++ url ++ [41] =
            (91 :: shown ++ js "](" ++ href) ++ [d] := by
          rw [List.append_assoc (91 :: shown ++ js "](")]
          exact htoken
        obtain ⟨hparts, hlast⟩ := List.append_inj' hends rfl
        refine ⟨shown, href, ?_, hlength.symm⟩
        rw [hparts]
        rfl

/-- A link is shown up to the first `](`, and the address is what follows. -/
theorem tokenPart_link (index : Nat) (label url : JsString) :
    ∃ shown href, tokenPart index (js "[" ++ label ++ js "](" ++ url ++ js ")") =
        some (.link index href shown) ∧
      js "[" ++ label ++ js "](" ++ url ++ js ")" =
        js "[" ++ shown ++ js "](" ++ href ++ js ")" := by
  obtain ⟨i, hi⟩ := exists_indexOf (js "](") (js "[" ++ label) (url ++ js ")")
  rw [← List.append_assoc] at hi
  obtain ⟨shown, href, htoken, rfl⟩ := exists_link_parts hi
  refine ⟨shown, href, ?_, htoken⟩
  rw [htoken] at hi ⊢
  have hstrong : startsWith (js "[" ++ shown ++ js "](" ++ href ++ js ")") (js "**") = false := rfl
  have hcode : startsWith (js "[" ++ shown ++ js "](" ++ href ++ js ")") (js "`") = false := rfl
  have hstart : startsWith (js "[" ++ shown ++ js "](" ++ href ++ js ")") (js "[") = true := by
    rw [List.append_assoc, List.append_assoc, List.append_assoc, startsWith_append]
  have hlabel : substring (js "[" ++ shown ++ js "](" ++ href ++ js ")") 1 (shown.length + 1) =
      shown := by
    have hmiddle := substring_middle (js "[") shown (js "](" ++ href ++ js ")")
    rw [Nat.add_comm, ← List.append_assoc, ← List.append_assoc] at hmiddle
    exact hmiddle
  have hhref : substring (js "[" ++ shown ++ js "](" ++ href ++ js ")") (shown.length + 1 + 2)
      ((js "[" ++ shown ++ js "](" ++ href ++ js ")").length - 1) = href := by
    have hmiddle := substring_middle (js "[" ++ shown ++ js "](") href (js ")")
    have hbefore : (js "[" ++ shown ++ js "](").length = shown.length + 1 + 2 := by
      simp [js]
    have hafter : (js "[" ++ shown ++ js "](" ++ href ++ js ")").length - 1 =
        shown.length + 1 + 2 + href.length := by
      rw [List.length_append, List.length_append, hbefore]
      rfl
    rw [hbefore] at hmiddle
    rw [hafter]
    exact hmiddle
  rw [tokenPart, hstrong, hcode, hstart, endsWith_append, hi]
  dsimp only
  rw [hlabel, hhref]
  rfl

/-- The part is shown without delimiters of its own. -/
def Inline.Delimited : Inline → Prop
  | .text _ => False
  | _ => True

/-- Every match becomes a part, which was written as the match. -/
theorem tokenPart_of_matches {token : JsString} (h : inlinePattern.Matches token) (index : Nat) :
    ∃ part, tokenPart index token = some part ∧ part.source = token ∧ part.Delimited := by
  rcases h with hstrong | hcode | hlink
  · obtain ⟨body, rfl⟩ := matches_delimited hstrong
    exact ⟨_, tokenPart_strong index body, rfl, trivial⟩
  · obtain ⟨body, rfl⟩ := matches_delimited hcode
    exact ⟨_, tokenPart_code index body, rfl, trivial⟩
  · obtain ⟨label, url, rfl⟩ := matches_linkPattern hlink
    obtain ⟨shown, href, hpart, htoken⟩ := tokenPart_link index label url
    refine ⟨_, hpart, ?_, trivial⟩
    rw [htoken, List.append_assoc, List.append_assoc (js "[" ++ shown),
      ← List.append_assoc (js "](")]
    rfl

theorem inlineParts_of_found {lastIdx : Nat} {text : JsString} {found : Pattern.Found Nat}
    (h : inlinePattern.search text = some found) : inlineParts lastIdx text =
      (if found.before.isEmpty then [] else [.text found.before]) ++
        (tokenPart (lastIdx + found.before.length) found.token).toList ++
          inlineParts (lastIdx + found.before.length + found.token.length) found.rest := by
  rw [inlineParts]
  split
  · next found' hfound =>
      obtain rfl : found' = found := Option.some.inj (hfound.symm.trans h)
      rfl
  · next hnone => cases hnone.symm.trans h

theorem inlineParts_of_none {lastIdx : Nat} {text : JsString}
    (h : inlinePattern.search text = none) :
    inlineParts lastIdx text = if text.isEmpty then [] else [.text text] := by
  rw [inlineParts]
  split
  · next found hfound => cases hfound.symm.trans h
  · rfl

theorem source_text (s : JsString) :
    (if s.isEmpty then [] else [Inline.text s]).flatMap Inline.source = s := by
  cases s <;> simp [Inline.source, Inline.delimiters, Inline.shown]

/-- The parts, as they were written, are the rest of the line. -/
theorem source_inlineParts (lastIdx : Nat) (text : JsString) :
    (inlineParts lastIdx text).flatMap Inline.source = text := by
  induction lastIdx, text using inlineParts.induct with
  | case1 lastIdx text found hfound ih =>
      obtain ⟨htext, hmatches⟩ := Pattern.search_eq_some hfound
      obtain ⟨part, hpart, hsource, -⟩ :=
        tokenPart_of_matches hmatches (lastIdx + found.before.length)
      calc (inlineParts lastIdx text).flatMap Inline.source
          = found.before ++ part.source ++ found.rest := by
            rw [inlineParts_of_found hfound, hpart, List.flatMap_append, List.flatMap_append,
              source_text, ih, Option.toList_some, List.flatMap_singleton]
        _ = text := by rw [hsource, ← htext]
  | case2 lastIdx text hnone _ => rw [inlineParts_of_none hnone, source_text]
  | case3 lastIdx text hnone _ => rw [inlineParts_of_none hnone, source_text]

theorem source_formatInline (text : JsString) :
    (formatInline text).flatMap Inline.source = text := by
  have hparts := source_inlineParts 0 text
  rw [formatInline]
  cases hempty : inlineParts 0 text with
  | nil =>
      rw [hempty] at hparts
      simp [Inline.source, Inline.delimiters, Inline.shown]
  | cons part parts =>
      rw [hempty] at hparts
      exact hparts

/-- No bold text, code or link begins a text. -/
def BeginsNone (text : JsString) : Prop :=
  ∀ token, token <+: text → ¬ inlinePattern.Matches token

/-- A text without delimiters to remove, as it is shown. -/
def plainPart (text : JsString) : List Inline :=
  if text.isEmpty then [] else [.text text]

/-- The parts of a text: each bold text, code and link without its delimiters, the leftmost
first and each the shortest at its place, and between them the text as it is. -/
inductive Formats : JsString → List Inline → Prop
  | plain (text : JsString) (h : ∀ later, later <:+ text → BeginsNone later) :
      Formats text (plainPart text)
  | token (before token rest : JsString) (part : Inline) (parts : List Inline)
      (hbefore : ∀ x y, before = x ++ y → y ≠ [] → BeginsNone (y ++ token ++ rest))
      (hmatches : inlinePattern.Matches token)
      (hshortest : ∀ other, other <+: token ++ rest → inlinePattern.Matches other →
        token.length ≤ other.length)
      (hpart : part.Delimited) (hsource : part.source = token) (hrest : Formats rest parts) :
      Formats (before ++ token ++ rest) (plainPart before ++ part :: parts)

/-- A pattern of literals and lazy repetitions finds its shortest match. -/
theorem shortest_of_run {P : Pattern Nat} (hP : P.Single) {text rest other : JsString}
    (h : P.run some text = some rest) (hother : other <+: text) (hmatches : P.Matches other) :
    text.length ≤ rest.length + other.length := by
  obtain ⟨u, rfl⟩ := hother
  have hle := Pattern.le_of_run hP later_some h hmatches rfl
  rw [List.length_append]
  omega

/-- The first character tells what a match is. -/
theorem matches_cases {token : JsString} (h : inlinePattern.Matches token) :
    token.head? = some 42 ∧ (delimited (js "**")).Matches token ∨
      token.head? = some 96 ∧ (delimited (js "`")).Matches token ∨
        token.head? = some 91 ∧ linkPattern.Matches token := by
  rcases h with hstrong | hcode | hlink
  · left
    refine ⟨?_, hstrong⟩
    obtain ⟨body, rfl⟩ := matches_delimited hstrong
    rfl
  · right; left
    refine ⟨?_, hcode⟩
    obtain ⟨body, rfl⟩ := matches_delimited hcode
    rfl
  · right; right
    refine ⟨?_, hlink⟩
    obtain ⟨label, url, rfl⟩ := matches_linkPattern hlink
    rfl

theorem head?_of_prefix {token text : JsString} (h : token <+: text) (hne : token ≠ []) :
    token.head? = text.head? := by
  obtain ⟨u, rfl⟩ := h
  exact (List.head?_append_of_ne_nil token hne).symm

/-- Two matches at the same place are of one kind, so the pattern finds the shortest. -/
theorem shortest_inlinePattern {text rest other : JsString}
    (h : inlinePattern.run some text = some rest) (hother : other <+: text)
    (hmatches : inlinePattern.Matches other) : text.length ≤ rest.length + other.length := by
  have hkind : ∀ P : Pattern Nat, P.Single →
      (∀ token, P.Matches token → inlinePattern.Matches token) →
      (∀ token, P.Matches token → token.head? = other.head? → P.Matches other) →
      P.run some text = some rest → text.length ≤ rest.length + other.length := by
    intro P hP hinline hsame hrun
    obtain ⟨token, u, htext, hfound, -⟩ := Pattern.run_eq_some hrun
    have htoken := head?_of_prefix ⟨u, htext.symm⟩ (ne_nil_of_matches (hinline token hfound))
    have hhead := head?_of_prefix hother (ne_nil_of_matches hmatches)
    exact shortest_of_run hP hrun hother (hsame token hfound (htoken.trans hhead.symm))
  have hcases := matches_cases hmatches
  rw [inlinePattern, Pattern.run] at h
  split at h
  · next hrun =>
      rw [h] at hrun
      refine hkind (delimited (js "**")) ⟨trivial, trivial, trivial⟩ (fun _ => .inl) ?_ hrun
      intro token htoken hhead
      obtain ⟨body, rfl⟩ := matches_delimited htoken
      rcases hcases with ⟨-, hstrong⟩ | ⟨hcode, -⟩ | ⟨hlink, -⟩
      · exact hstrong
      · cases hhead.trans hcode
      · cases hhead.trans hlink
  · rw [Pattern.run] at h
    split at h
    · next hrun =>
        rw [h] at hrun
        refine hkind (delimited (js "`")) ⟨trivial, trivial, trivial⟩
          (fun _ hcode => .inr (.inl hcode)) ?_ hrun
        intro token htoken hhead
        obtain ⟨body, rfl⟩ := matches_delimited htoken
        rcases hcases with ⟨hstrong, -⟩ | ⟨-, hcode⟩ | ⟨hlink, -⟩
        · cases hhead.trans hstrong
        · exact hcode
        · cases hhead.trans hlink
    · refine hkind linkPattern ⟨trivial, trivial, trivial, trivial, trivial⟩
        (fun _ hlink => .inr (.inr hlink)) ?_ h
      intro token htoken hhead
      obtain ⟨label, url, rfl⟩ := matches_linkPattern htoken
      rcases hcases with ⟨hstrong, -⟩ | ⟨hcode, -⟩ | ⟨-, hlink⟩
      · cases hhead.trans hstrong
      · cases hhead.trans hcode
      · exact hlink

theorem formats_of_none {text : JsString} (h : inlinePattern.search text = none) :
    Formats text (plainPart text) := by
  refine .plain text fun later hlater token hprefix => ?_
  exact Pattern.not_matches_of_run (Pattern.run_of_search_none h later hlater) hprefix

/-- The loop finds the parts. -/
theorem formats_inlineParts (lastIdx : Nat) (text : JsString) :
    Formats text (inlineParts lastIdx text) := by
  induction lastIdx, text using inlineParts.induct with
  | case1 lastIdx text found hfound ih =>
      obtain ⟨htext, hmatches⟩ := Pattern.search_eq_some hfound
      obtain ⟨hrun, hbefore⟩ := Pattern.run_of_search hfound
      obtain ⟨part, hpart, hsource, hdelimited⟩ :=
        tokenPart_of_matches hmatches (lastIdx + found.before.length)
      have hparts : inlineParts lastIdx text = plainPart found.before ++ part ::
          inlineParts (lastIdx + found.before.length + found.token.length) found.rest := by
        rw [inlineParts_of_found hfound, hpart, Option.toList_some, List.append_assoc]
        rfl
      rw [hparts, htext]
      refine .token _ _ _ part _ ?_ hmatches ?_ hdelimited hsource ih
      · intro x y hsplit hy token hprefix
        exact Pattern.not_matches_of_run (hbefore x y hsplit hy) hprefix
      · intro other hprefix hother
        have hle := shortest_inlinePattern hrun hprefix hother
        rw [List.length_append] at hle
        omega
  | case2 lastIdx text hnone _ =>
      rw [inlineParts_of_none hnone]
      exact formats_of_none hnone
  | case3 lastIdx text hnone _ =>
      rw [inlineParts_of_none hnone]
      exact formats_of_none hnone

/-- The text itself is returned where there are no parts, which is where it is empty. -/
theorem formats_formatInline (text : JsString) : ∃ parts, Formats text parts ∧
    formatInline text = if text.isEmpty then [.text []] else parts := by
  refine ⟨inlineParts 0 text, formats_inlineParts 0 text, ?_⟩
  rw [formatInline]
  cases text with
  | nil =>
      rw [inlineParts_of_none rfl]
      rfl
  | cons c text =>
      have hparts := source_inlineParts 0 (c :: text)
      cases hempty : inlineParts 0 (c :: text) with
      | nil =>
          rw [hempty] at hparts
          cases hparts
      | cons part parts => rfl

/-- The marks of the tasks. -/
def taskMarks : List JsString :=
  [js "- [ ] ", js "- [x] ", js "- [X] "]

/-- The marks of the blocks. -/
def blockMarks : List JsString :=
  [js "# ", js "## ", js "### ", js "> ", js "- ", js "* "]

/-- An element that shows a line outside code blocks: what is behind the marker of a block,
where there is one, goes through `formatInline`, and else the line. -/
inductive ShowsLine (line : JsString) : Element → Prop
  | h1 (key : Nat) (text : JsString) (h : line = js "# " ++ text) :
      ShowsLine line (.h1 key (formatInline text))
  | h2 (key : Nat) (text : JsString) (h : line = js "## " ++ text) :
      ShowsLine line (.h2 key (formatInline text))
  | h3 (key : Nat) (text : JsString) (h : line = js "### " ++ text) :
      ShowsLine line (.h3 key (formatInline text))
  | hr (key : Nat) (h : trim line = js "---" ∨ trim line = js "***") : ShowsLine line (.hr key)
  | bq (key : Nat) (text : JsString) (h : line = js "> " ++ text) :
      ShowsLine line (.bq key (formatInline text))
  | task (key : Nat) (mark text : JsString) (hmark : mark ∈ taskMarks)
      (h : line = mark ++ text) :
      ShowsLine line (.task key (mark != js "- [ ] ") (formatInline text))
  | li (key : Nat) (mark text : JsString) (hmark : mark = js "- " ∨ mark = js "* ")
      (htask : ∀ other ∈ taskMarks, startsWith line other = false)
      (h : line = mark ++ text) : ShowsLine line (.li key (formatInline text))
  | sp (key : Nat) (h : trim line = []) : ShowsLine line (.sp key)
  | p (key : Nat) (hmark : ∀ mark ∈ blockMarks, startsWith line mark = false)
      (hrule : trim line ≠ js "---" ∧ trim line ≠ js "***") (hblank : trim line ≠ []) :
      ShowsLine line (.p key (formatInline line))

theorem showsLine_lineElement (idx : Nat) (line : JsString) :
    ShowsLine line (lineElement idx line) := by
  unfold lineElement
  split
  · next h => exact .h1 idx _ (eq_append_drop h)
  next h1 =>
  split
  · next h => exact .h2 idx _ (eq_append_drop h)
  next h2 =>
  split
  · next h => exact .h3 idx _ (eq_append_drop h)
  next h3 =>
  split
  · next h =>
      rw [Bool.or_eq_true, beq_iff_eq, beq_iff_eq] at h
      exact .hr idx h
  next hr =>
  split
  · next h => exact .bq idx _ (eq_append_drop h)
  next hbq =>
  split
  · next h =>
      by_cases hx : startsWith line (js "- [x] ") = true
      · rw [hx]
        exact .task idx _ _ (by decide) (eq_append_drop hx)
      · by_cases hX : startsWith line (js "- [X] ") = true
        · rw [hX, Bool.or_true]
          exact .task idx _ _ (by decide) (eq_append_drop hX)
        · rw [Bool.not_eq_true] at hx hX
          rw [hx, hX, Bool.or_false, Bool.or_false] at h
          rw [hx, hX]
          exact .task idx _ _ (by decide) (eq_append_drop h)
  next htask =>
  simp only [Bool.not_eq_true, Bool.or_eq_false_iff, beq_eq_false_iff_ne] at h1 h2 h3 hr hbq htask
  split
  · next h =>
      have hother : ∀ other ∈ taskMarks, startsWith line other = false := by
        simpa [taskMarks, and_assoc] using htask
      rcases Bool.or_eq_true_iff.mp h with h | h
      · exact .li idx _ _ (.inl rfl) hother (eq_append_drop h)
      · exact .li idx _ _ (.inr rfl) hother (eq_append_drop h)
  next hli =>
  simp only [Bool.not_eq_true, Bool.or_eq_false_iff] at hli
  split
  · next h => exact .sp idx (List.isEmpty_iff.mp h)
  next hblank =>
  refine .p idx ?_ hr (fun h => hblank (List.isEmpty_iff.mpr h))
  simp only [blockMarks, List.forall_mem_cons]
  exact ⟨h1, h2, h3, hbq, hli.1, hli.2, by simp⟩

/-- What the lines of a document are read as. -/
inductive Block
  | line (text : JsString)
  | code (opening : JsString) (body : List JsString) (closing : JsString)

namespace Block

def lines : Block → List JsString
  | line text => [text]
  | code opening body closing => opening :: (body ++ [closing])

/-- Fence lines open and close code blocks, and only those. -/
def WellFormed : Block → Prop
  | line text => isFence text = false
  | code opening body closing =>
      isFence opening = true ∧ (∀ text ∈ body, isFence text = false) ∧ isFence closing = true

/-- The element shows the block, a code block with its text verbatim. -/
inductive Shows : Block → Element → Prop
  | line (text : JsString) (e : Element) (h : ShowsLine text e) : Shows (line text) e
  | code (key : Nat) (opening : JsString) (body : List JsString) (closing : JsString) :
      Shows (code opening body closing) (.code key ((trim opening).drop 3) (joinLines body))

end Block

/-- No line, or an opening fence with the lines behind it, none of which closes it. -/
def Unclosed : List JsString → Prop
  | [] => True
  | opening :: body => isFence opening = true ∧ ∀ text ∈ body, isFence text = false

/-- The flag and the buffer say which lines are not shown yet. -/
def Buffers (state : ViewerState) : List JsString → Prop
  | [] => state.inCodeBlock = false ∧ state.codeBuffer = []
  | opening :: body => state.inCodeBlock = true ∧ state.codeBuffer = body ∧
      state.codeLang = (trim opening).drop 3

/-- The elements show the blocks of the lines so far, but for a block that is not closed. -/
def Covers (state : ViewerState) (lines : List JsString) : Prop :=
  ∃ blocks unclosed, lines = blocks.flatMap Block.lines ++ unclosed ∧
    (∀ b ∈ blocks, b.WellFormed) ∧ Unclosed unclosed ∧ Buffers state unclosed ∧
      List.Forall₂ Block.Shows blocks state.elements

/-- A block that ends with the line is shown in one more element. -/
theorem Covers.block {state : ViewerState} {lines : List JsString} {blocks : List Block}
    {unclosed : List JsString} {line : JsString}
    (hlines : lines = blocks.flatMap Block.lines ++ unclosed)
    (hblocks : ∀ b ∈ blocks, b.WellFormed)
    (hshows : List.Forall₂ Block.Shows blocks state.elements) (block : Block) (e : Element)
    (hblock : block.lines = unclosed ++ [line]) (hformed : block.WellFormed)
    (hshown : block.Shows e) {state' : ViewerState}
    (helements : state'.elements = state.elements ++ [e])
    (hclosed : state'.inCodeBlock = false) (hbuffer : state'.codeBuffer = []) :
    Covers state' (lines ++ [line]) := by
  refine ⟨blocks ++ [block], [], ?_, ?_, trivial, ⟨hclosed, hbuffer⟩, ?_⟩
  · rw [hlines, List.flatMap_append, List.flatMap_singleton, hblock, List.append_nil,
      List.append_assoc]
  · intro b hb
    rcases List.mem_append.mp hb with hb | hb
    · exact hblocks b hb
    · rw [List.mem_singleton.mp hb]
      exact hformed
  · rw [helements]
    exact List.rel_append hshows (.cons hshown .nil)

theorem Covers.viewLine {state : ViewerState} {lines : List JsString} (h : Covers state lines)
    (idx : Nat) (line : JsString) : Covers (viewLine state idx line) (lines ++ [line]) := by
  obtain ⟨blocks, unclosed, hlines, hblocks, hunclosed, hbuffers, hshows⟩ := h
  unfold MarkdownViewer.viewLine
  cases unclosed with
  | nil =>
      obtain ⟨hflag, hbuffer⟩ := hbuffers
      rw [hflag]
      split
      · next hfence =>
          refine ⟨blocks, [line], ?_, hblocks, ⟨hfence, by simp⟩, ⟨rfl, hbuffer, rfl⟩, hshows⟩
          rw [hlines, List.append_nil]
      · next hplain =>
          have hplain' : isFence line = false := by simpa using hplain
          exact Covers.block hlines hblocks hshows (.line line) _ rfl hplain'
            (.line line _ (showsLine_lineElement idx line)) rfl rfl hbuffer
  | cons opening body =>
      obtain ⟨hflag, hbuffer, hlang⟩ := hbuffers
      rw [hflag]
      split
      · next hfence =>
          rw [hbuffer, hlang]
          exact Covers.block hlines hblocks hshows (.code opening body line) _ rfl
            ⟨hunclosed.1, hunclosed.2, hfence⟩ (.code idx opening body line) rfl rfl rfl
      · next hplain =>
          have hplain' : isFence line = false := by simpa using hplain
          refine ⟨blocks, opening :: (body ++ [line]), ?_, hblocks, ⟨hunclosed.1, ?_⟩,
            ⟨rfl, ?_, hlang⟩, hshows⟩
          · rw [hlines, List.append_assoc]
            rfl
          · intro text htext
            rcases List.mem_append.mp htext with htext | htext
            · exact hunclosed.2 text htext
            · rw [List.mem_singleton.mp htext]
              exact hplain'
          · exact congrArg (· ++ [line]) hbuffer

theorem Covers.viewLines {state : ViewerState} {lines : List JsString} (h : Covers state lines)
    (idx : Nat) (rest : List JsString) :
    Covers (viewLines state idx rest) (lines ++ rest) := by
  induction rest generalizing state lines idx with
  | nil =>
      rw [List.append_nil]
      exact h
  | cons line rest ih =>
      have hrest := ih (h.viewLine idx line) (idx + 1)
      rw [List.append_assoc] at hrest
      exact hrest

/-- What may be shown of a block that is not closed: nothing, or its lines in one element. -/
def ShowsUnclosed : List JsString → List Element → Prop
  | [], rest => rest = []
  | opening :: body, rest =>
      rest = [] ∨ ∃ key, rest = [.code key ((trim opening).drop 3) (joinLines body)]

/-- A document that is not blank falls into blocks, which the first elements show in order;
behind them there may be an opening fence that is not closed. The parts of every line, as
they were written, are the line, and its bold texts, codes and links are without their
delimiters. -/
theorem markdownViewer_shows (content : JsString) :
    ((trim content = [] ∧ markdownViewer content = .empty) ∨
      (trim content ≠ [] ∧ ∃ (blocks : List Block) (unclosed : List JsString)
        (shown rest : List Element),
        content.splitOn 10 = blocks.flatMap Block.lines ++ unclosed ∧
          (∀ b ∈ blocks, b.WellFormed) ∧ Unclosed unclosed ∧
            List.Forall₂ Block.Shows blocks shown ∧
              markdownViewer content = .elements (shown ++ rest) ∧
                ShowsUnclosed unclosed rest)) ∧
      ∀ text, (formatInline text).flatMap Inline.source = text ∧
        ∃ parts, Formats text parts ∧
          formatInline text = if text.isEmpty then [.text []] else parts := by
  refine ⟨?_, fun text => ⟨source_formatInline text, formats_formatInline text⟩⟩
  by_cases hblank : trim content = []
  · left
    refine ⟨hblank, ?_⟩
    rw [markdownViewer, hblank]
    rfl
  · right
    have hstart : Covers {} [] := ⟨[], [], rfl, by simp, trivial, ⟨rfl, rfl⟩, .nil⟩
    obtain ⟨blocks, unclosed, hlines, hblocks, hunclosed, -, hshows⟩ :=
      hstart.viewLines 0 (content.splitOn 10)
    have hrest : ShowsUnclosed unclosed [] := by
      cases unclosed with
      | nil => rfl
      | cons opening body => exact .inl rfl
    refine ⟨hblank, blocks, unclosed, _, [], hlines, hblocks, hunclosed, hshows, ?_, hrest⟩
    rw [markdownViewer, if_neg (by simpa using hblank), List.append_nil]

/-- What an element has of a line outside code blocks. -/
def Element.children : Element → List Inline
  | .h1 _ children | .h2 _ children | .h3 _ children | .bq _ children | .task _ _ children
  | .li _ children | .p _ children => children
  | .code _ _ _ | .hr _ | .sp _ => []

/-- A line of three dashes is shown as a rule, without its text. -/
theorem rule_without_text : ¬ ∀ content : JsString, ∀ line ∈ content.splitOn 10,
    isFence line = false → ∃ elements, markdownViewer content = .elements elements ∧
      ∃ e ∈ elements, (∃ key lang text, e = .code key lang text ∧ line <:+: text) ∨
        e.children = formatInline line := by
  intro hall
  have hview : markdownViewer (js "---") = .elements [.hr 0] := by decide
  obtain ⟨elements, helements, e, he, hline⟩ := hall (js "---") (js "---") (by decide) (by decide)
  obtain rfl : elements = [.hr 0] := View.elements.inj (helements.symm.trans hview)
  obtain rfl : e = .hr 0 := List.mem_singleton.mp he
  rcases hline with ⟨key, lang, text, hcode, -⟩ | hchildren
  · cases hcode
  · have hsource := source_formatInline (js "---")
    rw [← hchildren] at hsource
    cases hsource

end SyncBoard.Client.MarkdownViewer
