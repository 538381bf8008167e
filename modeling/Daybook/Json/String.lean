/-
The strings of JSON.

Nearly all of them are texts, and those are used as such.  A string that
holds a lone surrogate is no text; it is kept as its points, with the text
before the first such surrogate set apart.  Two halves of a pair next to
each other spell one character and are kept as that.  So two strings are
equal just when their points are.
-/
import Daybook.Text.Quote

namespace Daybook

open Text (Point)

/-- A string of a JSON value. -/
inductive JsonString where
  | whole (text : String)
  | broken (before : String) (lone : Fin 0x800) (after : List Point)
    (apart : Point.apart (.lone lone :: after) = true)
deriving DecidableEq

instance : Coe String JsonString := ⟨.whole⟩

namespace JsonString

/-- The points of a string. -/
def points : JsonString → List Point
  | .whole text => text.toList.map .char
  | .broken before lone after _ => before.toList.map .char ++ .lone lone :: after

/-- The string that some points spell. -/
def ofPoints (points : List Point) : JsonString :=
  match hparts : Point.leading (Point.join points) with
  | (cs, .lone offset :: after) => .broken (String.ofList cs) offset after (by
      have apart := Point.apart_leading_snd (Point.apart_join points)
      rw [hparts] at apart
      exact apart)
  | (cs, _) => .whole (String.ofList cs)

/-- A string as text: the replacement character stands for a lone
surrogate. -/
def text : JsonString → String
  | .whole text => text
  | s => String.ofList (s.points.map Point.shown)

/-- A string between quotes, lone surrogates spelled out. -/
def quoted (s : JsonString) : String := Text.quotePoints s.points

-- ============================================================== laws

@[simp] theorem text_whole (text : String) : (whole text).text = text := rfl

/-- No pair is left among the points of a string. -/
theorem apart_points (s : JsonString) : Point.apart s.points = true := by
  cases s with
  | whole text =>
    have apart := @Point.apart_map_char_append text.toList [] rfl
    rwa [List.append_nil] at apart
  | broken before lone after apart => exact Point.apart_map_char_append before.toList apart

@[simp] theorem points_ofPoints (points : List Point) :
    (ofPoints points).points = Point.join points := by
  have kept := Point.leading_append (Point.join points)
  have ending := Point.leading_snd (Point.join points)
  unfold ofPoints
  split
  · next cs offset after hparts =>
    rw [hparts] at kept
    simpa [JsonString.points] using kept
  · next cs rest hrest hparts =>
    rw [hparts] at kept ending
    rcases ending with rfl | ⟨offset, after, rfl⟩
    · simpa [JsonString.points] using kept
    · exact absurd rfl (hrest offset after)

/-- Strings with the same points are the same. -/
theorem ext_points {s t : JsonString} (h : s.points = t.points) : s = t := by
  have parts := congrArg Point.leading h
  cases s with
  | whole text =>
    cases t with
    | whole other => simpa [points, Point.leading_map_char, String.toList_inj] using parts
    | broken before lone after apart =>
      simp [points, Point.leading_map_char, Point.leading_lone] at parts
  | broken before lone after apart =>
    cases t with
    | whole other => simp [points, Point.leading_map_char, Point.leading_lone] at parts
    | broken before' lone' after' apart' =>
      simpa [points, Point.leading_lone, String.toList_inj] using parts

@[simp] theorem ofPoints_points (s : JsonString) : ofPoints s.points = s := by
  apply ext_points
  rw [points_ofPoints, Point.join_of_apart s.apart_points]

end JsonString
end Daybook
