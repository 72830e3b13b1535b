import SyncBoard.Comment.SanitizeText
import SyncBoard.Lib.Backtracking

/-!
# The Markdown preview

`MarkdownViewer` goes over the lines of a document with a flag and a buffer for code
blocks, and `formatInline` over the matches of one pattern in a line.

## Implementation notes

Of an element its kind, its key and its children are kept: no style, and of a link the
address. A key is the number behind its kind. Where `formatInline` returns the text itself,
it is one part.
-/

namespace SyncBoard.Client.MarkdownViewer

open Backtracking
open Workspace (trim)

def startsWith (s start : JsString) : Bool :=
  start.isPrefixOf s

def endsWith (s ending : JsString) : Bool :=
  ending.isSuffixOf s

/-- `indexOf`; `none` is `-1`. -/
def indexOf (s : JsString) : JsString → Option Nat
  | [] => if startsWith [] s then some 0 else none
  | c :: t => if startsWith (c :: t) s then some 0 else (indexOf s t).map (· + 1)

/-- `slice(start, -fromEnd)`. -/
def slice (s : JsString) (start fromEnd : Nat) : JsString :=
  (s.take (s.length - fromEnd)).drop start

def substring (s : JsString) (a b : Nat) : JsString :=
  (s.take (max a b)).drop (min a b)

/-- What `.` matches in a pattern: all but the line terminators. -/
def isDot (c : Nat) : Bool :=
  c ∉ [10, 13, 0x2028, 0x2029]

/-- A text between two delimiters, as short as possible. -/
def delimited (s : JsString) : Pattern Nat :=
  .seq (.literal s) (.seq (.lazyMany isDot) (.literal s))

/-- `\[.*?\]\(.*?\)`. -/
def linkPattern : Pattern Nat :=
  .seq (.literal (js "["))
    (.seq (.lazyMany isDot)
      (.seq (.literal (js "](")) (.seq (.lazyMany isDot) (.literal (js ")")))))

/-- The pattern of `formatInline`. -/
def inlinePattern : Pattern Nat :=
  .alt (delimited (js "**")) (.alt (delimited (js "`")) linkPattern)

/-- A part of a line. -/
inductive Inline
  | text (s : JsString)
  | strong (key : Nat) (s : JsString)
  | code (key : Nat) (s : JsString)
  | link (key : Nat) (href s : JsString)
  deriving DecidableEq, Repr

/-- What the loop pushes for a match. -/
def tokenPart (index : Nat) (token : JsString) : Option Inline :=
  if startsWith token (js "**") && endsWith token (js "**") then
    some (.strong index (slice token 2 2))
  else if startsWith token (js "`") && endsWith token (js "`") then
    some (.code index (slice token 1 1))
  else
    match indexOf (js "](") token with
    | some i =>
        if startsWith token (js "[") && endsWith token (js ")") then
          some (.link index (substring token (i + 2) (token.length - 1)) (substring token 1 i))
        else none
    | none => none

/-- A text between delimiters. -/
theorem matches_delimited {s token : JsString} (h : (delimited s).Matches token) :
    ∃ body, token = s ++ body ++ s := by
  obtain ⟨_, _, rfl, rfl, body, _, rfl, -, rfl⟩ := h
  exact ⟨body, (List.append_assoc ..).symm⟩

theorem matches_linkPattern {token : JsString} (h : linkPattern.Matches token) :
    ∃ label url, token = js "[" ++ label ++ js "](" ++ url ++ js ")" := by
  obtain ⟨_, _, rfl, rfl, label, _, rfl, -, _, _, rfl, rfl, url, _, rfl, -, rfl⟩ := h
  exact ⟨label, url, by simp⟩

/-- No match is empty. -/
theorem ne_nil_of_matches {token : JsString} (h : inlinePattern.Matches token) : token ≠ [] := by
  rintro rfl
  rcases h with h | h | h
  · obtain ⟨body, hbody⟩ := matches_delimited h
    cases hbody
  · obtain ⟨body, hbody⟩ := matches_delimited h
    cases hbody
  · obtain ⟨label, url, hlink⟩ := matches_linkPattern h
    cases hlink

/-- The loop of `formatInline`, from the end of the last match on. -/
def inlineParts (lastIdx : Nat) (text : JsString) : List Inline :=
  match hfound : inlinePattern.search text with
  | some found =>
      (if found.before.isEmpty then [] else [.text found.before]) ++
        (tokenPart (lastIdx + found.before.length) found.token).toList ++
          inlineParts (lastIdx + found.before.length + found.token.length) found.rest
  | none => if text.isEmpty then [] else [.text text]
termination_by text.length
decreasing_by
  obtain ⟨htext, hmatches⟩ := Pattern.search_eq_some hfound
  have htoken := List.length_pos_of_ne_nil (ne_nil_of_matches hmatches)
  rw [htext, List.length_append, List.length_append]
  omega

def formatInline (text : JsString) : List Inline :=
  let parts := inlineParts 0 text
  if parts.isEmpty then [.text text] else parts

namespace Inline

/-- What the part shows. -/
def shown : Inline → JsString
  | text s | strong _ s | code _ s | link _ _ s => s

/-- What stands before and behind the part in the line. -/
def delimiters : Inline → JsString × JsString
  | text _ => ([], [])
  | strong _ _ => (js "**", js "**")
  | code _ _ => (js "`", js "`")
  | link _ href _ => (js "[", js "](" ++ href ++ js ")")

/-- What the part was written as. -/
def source (part : Inline) : JsString :=
  part.delimiters.1 ++ part.shown ++ part.delimiters.2

end Inline

/-- An element of the preview. -/
inductive Element
  | code (key : Nat) (lang text : JsString)
  | h1 (key : Nat) (children : List Inline)
  | h2 (key : Nat) (children : List Inline)
  | h3 (key : Nat) (children : List Inline)
  | hr (key : Nat)
  | bq (key : Nat) (children : List Inline)
  | task (key : Nat) (isChecked : Bool) (children : List Inline)
  | li (key : Nat) (children : List Inline)
  | sp (key : Nat)
  | p (key : Nat) (children : List Inline)
  deriving DecidableEq, Repr

def isFence (line : JsString) : Bool :=
  startsWith (trim line) (js "```")

/-- The element of a line outside code blocks. -/
def lineElement (idx : Nat) (line : JsString) : Element :=
  if startsWith line (js "# ") then .h1 idx (formatInline (line.drop 2))
  else if startsWith line (js "## ") then .h2 idx (formatInline (line.drop 3))
  else if startsWith line (js "### ") then .h3 idx (formatInline (line.drop 4))
  else if trim line == js "---" || trim line == js "***" then .hr idx
  else if startsWith line (js "> ") then .bq idx (formatInline (line.drop 2))
  else if startsWith line (js "- [ ] ") || startsWith line (js "- [x] ") ||
      startsWith line (js "- [X] ") then
    .task idx (startsWith line (js "- [x] ") || startsWith line (js "- [X] "))
      (formatInline (line.drop 6))
  else if startsWith line (js "- ") || startsWith line (js "* ") then
    .li idx (formatInline (line.drop 2))
  else if (trim line).isEmpty then .sp idx
  else .p idx (formatInline line)

/-- What the loop over the lines carries along. -/
structure ViewerState where
  elements : List Element := []
  inCodeBlock : Bool := false
  codeBuffer : List JsString := []
  codeLang : JsString := []
  deriving DecidableEq, Repr

/-- `lines.join` with a line feed. -/
def joinLines (lines : List JsString) : JsString :=
  [10].intercalate lines

/-- One round of the loop. -/
def viewLine (state : ViewerState) (idx : Nat) (line : JsString) : ViewerState :=
  if isFence line then
    if state.inCodeBlock then
      { elements := state.elements ++ [.code idx state.codeLang (joinLines state.codeBuffer)]
        inCodeBlock := false
        codeBuffer := []
        codeLang := [] }
    else { state with inCodeBlock := true, codeLang := (trim line).drop 3 }
  else if state.inCodeBlock then { state with codeBuffer := state.codeBuffer ++ [line] }
  else { state with elements := state.elements ++ [lineElement idx line] }

def viewLines : ViewerState → Nat → List JsString → ViewerState
  | state, _, [] => state
  | state, idx, line :: lines => viewLines (viewLine state idx line) (idx + 1) lines

/-- What is rendered: a note that the document is empty, or the elements. -/
inductive View
  | empty
  | elements (elements : List Element)
  deriving DecidableEq, Repr

def markdownViewer (content : JsString) : View :=
  if (trim content).isEmpty then .empty
  else .elements (viewLines {} 0 (content.splitOn 10)).elements

end SyncBoard.Client.MarkdownViewer
