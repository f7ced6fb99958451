import DocStore.Proofs.Json.Magnitude
import DocStore.Proofs.Legible

/-!
# Documents and their texts

A document is read from its text, in either layout, exactly when it is not nested too deep: no
double in it stops the reader (`Document.isSome_ofText?_text_iff`). What is read is the document
itself, as long as its doubles are finite and their own texts give them back
(`Document.text_codec`).
-/

namespace DocStore

namespace Value

mutual

lemma isSome_reread? (value : Value) : value.reread?.isSome = true := by
  match value with
  | .null | .bool _ | .int _ | .string _ => rfl
  | .float x => exact isSome_rereadFloat? x
  | .array items => rw [reread?, Option.isSome_map, isSome_rereadItems? items]
  | .object fields => rw [reread?, Option.isSome_map, isSome_rereadFields? fields]

lemma isSome_rereadItems? (items : List Value) : (rereadItems? items).isSome = true := by
  match items with
  | [] => rfl
  | item :: rest =>
    obtain ⟨value, hvalue⟩ := Option.isSome_iff_exists.mp (isSome_reread? item)
    obtain ⟨values, hvalues⟩ := Option.isSome_iff_exists.mp (isSome_rereadItems? rest)
    rw [rereadItems?, hvalue, hvalues]
    rfl

lemma isSome_rereadFields? (fields : List (String × Value)) :
    (rereadFields? fields).isSome = true := by
  match fields with
  | [] => rfl
  | (name, inner) :: rest =>
    obtain ⟨value, hvalue⟩ := Option.isSome_iff_exists.mp (isSome_reread? inner)
    obtain ⟨members, hmembers⟩ := Option.isSome_iff_exists.mp (isSome_rereadFields? rest)
    rw [rereadFields?, hvalue, hmembers]
    rfl

end

end Value

namespace Document

variable {doc : Document}

theorem isSome_ofText?_text_iff (h : doc.Ordered) (layout : Value.Layout) :
    (ofText? (doc.text layout)).isSome = true ↔ doc.nesting ≤ Value.nestingLimit := by
  have hreread : doc.reread?.isSome = true := Value.isSome_rereadFields? doc
  rw [ofText?_text doc h]
  split <;> simp_all

/-- A document is read back unchanged from its compact text and from its pretty text when it is
nested within the limit and its doubles are finite, given that the text of each of these doubles
stands for it. Both texts are refused when the document is nested deeper, whatever its doubles. -/
theorem text_codec (h : doc.Ordered) (layout : Value.Layout) :
    (doc.nesting ≤ Value.nestingLimit → (∀ x ∈ (Value.object doc).floats, x.isFinite = true) →
      (Value.object doc).FiniteReadBack → ofText? (doc.text layout) = some doc) ∧
    ((ofText? (doc.text layout)).isSome = true ↔ doc.nesting ≤ Value.nestingLimit) := by
  refine ⟨fun hnesting hfinite hread => ?_, isSome_ofText?_text_iff h layout⟩
  exact (ofText?_text_eq_self_iff h layout).mpr
    ⟨hnesting, fun x hx => hread x hx (hfinite x hx)⟩

/-- A document with numbers that are equal but of different kinds, and with characters that are
written as escapes. -/
theorem text_codec_of_escapes :
    let doc : Document := [("a\"\\\n", .array [.int 1, .float (.ofInt 1), .float (.zero true)]),
      ("é\u0001", .object [("", .string "\t😀")])]
    ofText? (doc.text .compact) = some doc ∧ ofText? (doc.text .pretty) = some doc := by
  intro doc
  have hordered : doc.Ordered := by
    have hkeys : ["a\"\\\n", "é\u0001"].Pairwise (· < ·) := by decide +kernel
    simpa [doc, Document.Ordered, Value.Ordered, Value.OrderedItems, Value.OrderedFields,
      Fields.Ascending] using hkeys
  have hread : ∀ layout, ofText? (doc.text layout) = some doc := fun layout =>
    (text_codec hordered layout).1 (by decide) (by decide) (by decide +kernel)
  exact ⟨hread .compact, hread .pretty⟩

end Document

end DocStore
