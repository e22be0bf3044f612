import Polyphony.Compile
import Polyphony.Proofs.Score.Layout

/-! A score compiles to the same result, tracks or error, however it is laid out: white space may
stand anywhere, and letters may be written in either case. -/
namespace Polyphony

open Score (Relaid normalise)

variable {source edited : String}

/-- The options are checked without the text, and the text is read without its layout. -/
theorem compile_congr (o : Options) (same : normalise edited.toList = normalise source.toList) :
    compile o edited = compile o source := by
  simp only [compile, same]

/-- Equal results are the same tracks, or the same error: a fault of the text has its fragment, its
voice and its index with it. -/
theorem compile_ignores_layout (o : Options) (source : String) :
    (∀ edited : String, Relaid source.toList edited.toList → compile o edited = compile o source) ∧
      normalise (normalise source.toList) = normalise source.toList ∧
      compile o (String.ofList (normalise source.toList)) = compile o source := by
  refine ⟨?_, Score.normalise_normalise source.toList, ?_⟩
  · intro edited relaid
    exact compile_congr o relaid.normalise_eq
  · apply compile_congr
    rw [String.toList_ofList, Score.normalise_normalise]

/-- A blank goes, a letter changes its case and a line ends: the chord is still not closed. -/
theorem compile_relaid_open_chord :
    Relaid "0|1: [t".toList "0|1:[T\n".toList ∧
      compile {} "0|1: [t" = .error (.lex ⟨⟨.unclosedChord, 2⟩, 1, 1⟩) ∧
      compile {} "0|1:[T\n" = compile {} "0|1: [t" := by
  have relaid : Relaid "0|1: [t".toList "0|1:[T\n".toList := by
    have blank : Score.Edit "0|1: [t".toList "0|1:[t".toList :=
      .delete "0|1:".toList "[t".toList ' ' (by decide)
    have letter : Score.Edit "0|1:[t".toList "0|1:[T".toList :=
      .recase "0|1:[".toList [] 't' (by decide)
    have line : Score.Edit "0|1:[T".toList "0|1:[T\n".toList :=
      .insert "0|1:[T".toList [] '\n' (by decide)
    exact ((Relation.ReflTransGen.single blank).tail letter).tail line
  exact ⟨relaid, by decide +kernel, (compile_ignores_layout {} "0|1: [t").1 _ relaid⟩

end Polyphony
