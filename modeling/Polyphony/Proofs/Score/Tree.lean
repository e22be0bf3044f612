import Polyphony.Proofs.Json
import Polyphony.Score.Tree

/-! A tree is read back by the names of its fields, so two trees for one value are read alike; and
what is read from the tree of a score is the score. Each layer of the tree has both lemmas, and each
uses those of the layers below it. -/
namespace Polyphony.Score

open Json (Same)

variable {tree other : Json}

/-- What is written item by item is read item by item. -/
theorem mapM_map_of_inverse {α : Type} {f : α → Json} {g : Json → Option α}
    (inverse : ∀ item, g (f item) = some item) (items : List α) :
    (items.map f).mapM g = some items := by
  have each : g ∘ f = pure := funext inverse
  rw [List.mapM_map, each, List.mapM_pure, List.map_id']
  rfl

namespace NoteCode

theorem ofJson?_congr (same : tree.Same other) : ofJson? tree = ofJson? other := by
  refine same.bind_field? "pitch" fun value value' alike => ?_
  rw [alike.int?_eq]
  congr 1
  funext pitch
  refine same.bind_field? "length" fun value value' alike => ?_
  rw [alike.int?_eq]

theorem ofJson?_toJson (code : NoteCode) : ofJson? code.toJson = some code := by
  simp [ofJson?, toJson, fields]

/-- The kind of token that stands beside the fields of a note is not one of them. -/
theorem ofJson?_tagged (kind : Json) (code : NoteCode) :
    ofJson? (.object (("type", kind) :: code.fields)) = some code := by
  simp [ofJson?, fields]

end NoteCode

namespace Effect

theorem ofJson?_congr (same : tree.Same other) : ofJson? tree = ofJson? other := by
  have named := same.named_eq "unknown" Effect.unknown
  cases same with
  | string word => rfl
  | _ => exact named

/-- No word stands for two effects, and an unknown effect is never a word. -/
theorem ofJson?_toJson (effect : Effect) : ofJson? effect.toJson = some effect := by
  cases effect <;> simp [ofJson?, toJson, words, List.lookup_cons]

end Effect

namespace Directive

theorem ofJson?_congr (same : tree.Same other) : ofJson? tree = ofJson? other := by
  refine same.bind_field? "effect" fun value value' alike => ?_
  rw [Effect.ofJson?_congr alike]
  congr 1
  funext effect
  have values := same.field? "value"
  generalize tree.field? "value" = first at values ⊢
  generalize other.field? "value" = second at values ⊢
  cases values with
  | none => rfl
  | some value => simp only [value.string?_eq]

/-- A missing value is no field at all, an empty one is a field. -/
theorem ofJson?_tagged (kind : Json) (d : Directive) :
    ofJson? (.object (("type", kind) :: d.fields)) = some d := by
  obtain ⟨effect, value⟩ := d
  cases value with
  | none => simp [ofJson?, fields, Effect.ofJson?_toJson]
  | some text => simp [ofJson?, fields, Effect.ofJson?_toJson]

end Directive

namespace Token

theorem ofJson?_congr (same : tree.Same other) : ofJson? tree = ofJson? other := by
  refine same.bind_field? "type" fun value value' alike => ?_
  -- A note and a directive are read from the token itself, beside its kind.
  rw [alike.string?_eq, NoteCode.ofJson?_congr same, Directive.ofJson?_congr same]
  congr 1
  funext kind
  split
  · rfl
  split
  · refine same.bind_field? "notes" fun value value' alike => ?_
    have read := alike.bind_array? fun _ _ => NoteCode.ofJson?_congr
    simp only [← bind_assoc, read]
  split
  · refine same.bind_field? "length" fun value value' alike => ?_
    rw [alike.int?_eq]
  · rfl

theorem ofJson?_toJson (token : Token) : ofJson? token.toJson = some token := by
  cases token with
  | note code =>
    have read := NoteCode.ofJson?_tagged (.string "note") code
    simp [ofJson?, toJson, read]
  | chord notes =>
    have read := mapM_map_of_inverse NoteCode.ofJson?_toJson notes
    simp [ofJson?, toJson, read]
  | rest length => simp [ofJson?, toJson]
  | directive d =>
    have read := Directive.ofJson?_tagged (.string "meta") d
    simp [ofJson?, toJson, read]

end Token

namespace Rhythm

theorem ofJson?_congr (same : tree.Same other) : ofJson? tree = ofJson? other := by
  have named := same.named_eq "absolute" Rhythm.absolute
  cases same with
  | string word => rfl
  | _ => exact named

/-- An absolute mode of any text, the word for the relative one too, is an object. -/
theorem ofJson?_toJson (rhythm : Rhythm) : ofJson? rhythm.toJson = some rhythm := by
  cases rhythm <;> simp [ofJson?, toJson]

end Rhythm

namespace Fragment

theorem ofJson?_congr (same : tree.Same other) : ofJson? tree = ofJson? other := by
  refine same.bind_field? "sequences" fun value value' alike => ?_
  have read := alike.bind_array? fun _ _ voice =>
    voice.bind_array? fun _ _ => Token.ofJson?_congr
  have rhythms := same.bind_field? "rhythm" fun _ _ => Rhythm.ofJson?_congr
  simp only [← bind_assoc, read, rhythms]

theorem ofJson?_toJson (f : Fragment) : ofJson? f.toJson = some f := by
  have voice (voice : Voice) := mapM_map_of_inverse Token.ofJson?_toJson voice
  have voices := mapM_map_of_inverse (f := fun voice => .array (List.map Token.toJson voice))
    (g := fun tree => tree.array? >>= fun tokens => tokens.mapM Token.ofJson?) voice f.voices
  simp only [Option.bind_eq_bind] at voices
  simp [ofJson?, toJson, voices, Rhythm.ofJson?_toJson]

end Fragment

theorem ofJson?_congr (same : tree.Same other) : ofJson? tree = ofJson? other :=
  same.bind_array? fun _ _ => Fragment.ofJson?_congr

theorem ofJson?_toJson (fragments : List Fragment) : ofJson? (toJson fragments) = some fragments :=
  mapM_map_of_inverse Fragment.ofJson?_toJson fragments

/-- Two scores have trees for one value only if they are one score, whatever order the fields of an
object are in. -/
theorem toJson_same_iff (fragments others : List Fragment) :
    (toJson fragments).Same (toJson others) ↔ fragments = others := by
  constructor
  · intro same
    have read := ofJson?_congr same
    rw [ofJson?_toJson, ofJson?_toJson] at read
    exact Option.some.inj read
  · rintro rfl
    exact Same.refl _

end Polyphony.Score
