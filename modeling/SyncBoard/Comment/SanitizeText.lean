import SyncBoard.Lib.Replace
import SyncBoard.Workspace.Services

/-!
# Sanitized comment texts

`sanitizePlainText`, through which the content of a comment goes before it is validated.
Nothing of the shape of a tag is left. What the second pass over the tags joins may spell
an entity again; a text is changed by sanitizing it once more exactly where this happened.
-/

namespace SyncBoard.Comment

open Replace SyncBoard.Workspace

/-- `replace(/<[^>]*>/g, '')`. -/
def stripTags (value : JsString) : JsString :=
  withoutSpans '<'.toNat '>'.toNat false value

/-- `replace(/&lt;/g, '<').replace(/&gt;/g, '>')`. -/
def decodeEntities (value : JsString) : JsString :=
  replaceAll (js "&gt;") '>'.toNat 0 (replaceAll (js "&lt;") '<'.toNat 0 value)

def sanitizePlainText (value : JsString) : JsString :=
  trim (stripTags (decodeEntities (stripTags value)))

/-- Some `<` is followed by a `>`. -/
def ContainsTag (s : JsString) : Prop :=
  ['<'.toNat, '>'.toNat].Sublist s

/-- One of the entities that are decoded occurs. -/
def ContainsEntity (s : JsString) : Prop :=
  js "&lt;" <:+: s ∨ js "&gt;" <:+: s

theorem trim_eq (s : JsString) : trim s = (s.dropWhile isSpace).rdropWhile isSpace := rfl

theorem trim_isInfix (s : JsString) : trim s <:+: s := by
  rw [trim_eq]
  exact (List.rdropWhile_prefix isSpace _).isInfix.trans (List.dropWhile_suffix isSpace).isInfix

theorem trim_trim (s : JsString) : trim (trim s) = trim s := by
  rw [trim_eq (trim s)]
  have hleft : (trim s).dropWhile isSpace = trim s := by
    rw [List.dropWhile_eq_self_iff]
    intro hpos
    -- the first character is that of the text without the space before it
    have hstart : trim s <+: s.dropWhile isSpace := List.rdropWhile_prefix isSpace _
    have hpos' : 0 < (s.dropWhile isSpace).length := Nat.lt_of_lt_of_le hpos hstart.length_le
    rw [hstart.getElem hpos]
    exact List.dropWhile_eq_self_iff.mp (List.dropWhile_idempotent isSpace s) hpos'
  rw [hleft]
  exact List.rdropWhile_idempotent isSpace (s.dropWhile isSpace)

theorem not_containsTag_sanitizePlainText (value : JsString) :
    ¬ContainsTag (sanitizePlainText value) :=
  fun h => not_sublist_withoutSpans false _ (h.trans (trim_isInfix _).sublist)

theorem stripTags_of_not_containsTag {s : JsString} (h : ¬ContainsTag s) : stripTags s = s :=
  withoutSpans_of_not_sublist h

theorem decodeEntities_of_not_containsEntity {s : JsString} (h : ¬ContainsEntity s) :
    decodeEntities s = s := by
  rw [ContainsEntity, not_or] at h
  rw [decodeEntities, replaceAll_of_absent h.1, replaceAll_of_absent h.2]

/-- A text with neither tags nor entities is only trimmed. -/
theorem sanitizePlainText_of_plain {s : JsString} (htag : ¬ContainsTag s)
    (hentity : ¬ContainsEntity s) : sanitizePlainText s = trim s := by
  rw [sanitizePlainText, stripTags_of_not_containsTag htag,
    decodeEntities_of_not_containsEntity hentity, stripTags_of_not_containsTag htag]

/-- In no sanitized text is a `<` followed by a `>`, and a text without `<`, `>` and `&` is
only trimmed. -/
theorem sanitizePlainText_no_markup (value : JsString) :
    ¬ContainsTag (sanitizePlainText value) ∧
    ('<'.toNat ∉ value ∧ '>'.toNat ∉ value ∧ '&'.toNat ∉ value →
      sanitizePlainText value = trim value) := by
  refine ⟨not_containsTag_sanitizePlainText value, ?_⟩
  rintro ⟨hopening, -, hamp⟩
  have htag : ¬ContainsTag value := fun h => hopening (h.subset List.mem_cons_self)
  have hentity : ¬ContainsEntity value := by
    rintro (h | h)
    · exact hamp (h.subset (by decide))
    · exact hamp (h.subset (by decide))
  exact sanitizePlainText_of_plain htag hentity

theorem not_containsEntity_decodeEntities (s : JsString) : ¬ContainsEntity (decodeEntities s) := by
  rintro (h | h)
  · -- writing `>` for `&gt;` spells no `&lt;`
    have hlt := infix_of_infix_replaceAll (by decide) h
    exact not_infix_replaceAll (by decide) (by decide) hlt
  · exact not_infix_replaceAll (by decide) (by decide) h

theorem ContainsEntity.trans {s t : JsString} (h : ContainsEntity s) (hst : s <:+: t) :
    ContainsEntity t :=
  h.imp (fun hlt => hlt.trans hst) fun hgt => hgt.trans hst

/-- Only where the decoded text has tags can the sanitized one have entities. -/
theorem not_containsEntity_sanitizePlainText {value : JsString}
    (h : ¬ContainsTag (decodeEntities (stripTags value))) :
    ¬ContainsEntity (sanitizePlainText value) := by
  rw [sanitizePlainText, stripTags_of_not_containsTag h]
  exact fun hentity => not_containsEntity_decodeEntities _ (hentity.trans (trim_isInfix _))

theorem length_decodeEntities_lt {s : JsString} (h : ContainsEntity s) :
    (decodeEntities s).length < s.length := by
  have hle (pattern : JsString) (new : Nat) (t : JsString) :
      (replaceAll pattern new 0 t).length ≤ t.length :=
    length_replaceAll_le pattern new 0 t
  by_cases hlt : js "&lt;" <:+: s
  · exact Nat.lt_of_le_of_lt (hle _ _ _) (length_replaceAll_lt (by decide) hlt)
  · rw [decodeEntities, replaceAll_of_absent hlt]
    exact length_replaceAll_lt (by decide) (h.resolve_left hlt)

/-- A text with an entity but no tag gets shorter. -/
theorem length_sanitizePlainText_lt {s : JsString} (htag : ¬ContainsTag s)
    (hentity : ContainsEntity s) : (sanitizePlainText s).length < s.length := by
  rw [sanitizePlainText, stripTags_of_not_containsTag htag]
  calc (trim (stripTags (decodeEntities s))).length
      ≤ (stripTags (decodeEntities s)).length := (trim_isInfix _).length_le
    _ ≤ (decodeEntities s).length := (withoutSpans_sublist false _).length_le
    _ < s.length := length_decodeEntities_lt hentity

/-- Sanitizing a sanitized text changes it exactly where it spells an entity, for which the
decoded text must have had a tag. -/
theorem sanitizePlainText_twice (value : JsString) :
    (sanitizePlainText (sanitizePlainText value) = sanitizePlainText value ↔
      ¬ContainsEntity (sanitizePlainText value)) ∧
    (ContainsEntity (sanitizePlainText value) →
      ContainsTag (decodeEntities (stripTags value))) := by
  have htag := not_containsTag_sanitizePlainText value
  refine ⟨⟨fun h hentity => ?_, fun hentity => ?_⟩, fun hentity => ?_⟩
  · have hlength := length_sanitizePlainText_lt htag hentity
    rw [h] at hlength
    exact Nat.lt_irrefl _ hlength
  · rw [sanitizePlainText_of_plain htag hentity]
    exact trim_trim _
  · by_contra hnone
    exact not_containsEntity_sanitizePlainText hnone hentity

/-- Removing the decoded tag of `&&lt;x&gt;lt;` spells `&lt;`, which is decoded in turn. -/
theorem sanitizePlainText_not_idempotent :
    sanitizePlainText (js "&&lt;x&gt;lt;") = js "&lt;" ∧
    sanitizePlainText (sanitizePlainText (js "&&lt;x&gt;lt;")) = js "<" := by
  decide

end SyncBoard.Comment
