import StoryPlayer.Proofs.Text.Lines
import StoryPlayer.Script.Reading

/-!
# Reading a script that grows

What the complete lines of a script give is never revised: text that is added gives more behind it.
So a script read line by line as it comes gives what it gives when it is read as a whole, and lines
that are blank give nothing either way.
-/

namespace StoryPlayer

namespace Reading

/-- Reads the texts of lines one after another from a scene. -/
def ofTexts (s : Scene) (ls : List Text) : Reading :=
  ofLines s (ls.map Line.ofText)

theorem ofTexts_append (s : Scene) (ls ms : List Text) :
    ofTexts s (ls ++ ms) = (ofTexts s ls).append (ofTexts (ofTexts s ls).scene ms) := by
  unfold ofTexts
  rw [List.map_append, ofLines_append]

theorem append_blank (r : Reading) : r.append ⟨[], r.scene, none⟩ = r := by
  simp [append]

/-- Blank lines give nothing. -/
theorem ofTexts_of_blank {ls : List Text} (h : ∀ l ∈ ls, Text.trim l = []) (s : Scene) :
    ofTexts s ls = ⟨[], s, none⟩ := by
  induction ls with
  | nil => rfl
  | cons l ls ih =>
    have hl : Line.ofText l = .blank := by
      rw [Line.ofText, h l List.mem_cons_self]
      rfl
    have hls := ih fun m hm => h m (List.mem_cons_of_mem l hm)
    calc
      ofTexts s (l :: ls) = (ofTexts s [l]).append (ofTexts (ofTexts s [l]).scene ls) :=
        ofTexts_append s [l] ls
      _ = (⟨[], s, none⟩ : Reading).append (ofTexts s ls) := by
        rw [ofTexts, List.map_singleton, hl]
        rfl
      _ = ⟨[], s, none⟩ := by
        rw [hls]
        rfl

end Reading

theorem readScript_eq (t : Text) (s : Scene) : readScript t s = .ofTexts s (Text.lines t) :=
  rfl

theorem readScript_of_blank {t : Text} (h : Text.trim t = []) (s : Scene) :
    readScript t s = ⟨[], s, none⟩ :=
  Reading.ofTexts_of_blank (fun _ hl => Text.trim_eq_nil_of_mem_lines h hl) s

/-- Lines are read alike one by one and as the text that they make up. -/
theorem readScript_join {ls : List Text} (hne : ls ≠ []) (h : ∀ l ∈ ls, '\n' ∉ l) (s : Scene) :
    readScript (Text.join ['\n'] ls) s = .ofTexts s ls := by
  rw [readScript_eq, Text.lines, Text.pieces_join hne h]

/-- Reads the complete lines of a script. -/
def readFull (t : Text) : Reading :=
  .ofTexts Scene.empty (Text.fullLines t)

/-- A script gives what its first lines give and then what the others give behind them. -/
theorem readScript_eq_append {t u : Text} {ls : List Text}
    (h : Text.lines t = Text.fullLines u ++ ls) :
    readScript t Scene.empty = (readFull u).append (.ofTexts (readFull u).scene ls) := by
  rw [readScript_eq, h, Reading.ofTexts_append, readFull]

/-- A script whose last line is empty gives what its complete lines give. -/
theorem readScript_eq_readFull {t u : Text} (h : Text.lines t = Text.fullLines u ++ [[]]) :
    readScript t Scene.empty = readFull u := by
  have hblank : Reading.ofTexts (readFull u).scene [[]] = ⟨[], (readFull u).scene, none⟩ :=
    Reading.ofTexts_of_blank (by simp [Text.trim_eq_nil_iff]) _
  rw [readScript_eq_append h, hblank, Reading.append_blank]

theorem readFull_eq_append {t u : Text} {ls : List Text}
    (h : Text.fullLines t = Text.fullLines u ++ ls) :
    readFull t = (readFull u).append (.ofTexts (readFull u).scene ls) := by
  rw [readFull, h, Reading.ofTexts_append, readFull]

end StoryPlayer
