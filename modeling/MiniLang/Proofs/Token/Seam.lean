import MiniLang.Proofs.Token.Offsets
/-!
# Seams

Two texts are read apart where no word goes on over the seam between them.  The tokens of the text that they make are
those of the first and those of the second, moved to where the second starts: down by the line feeds of the first, and in
its first line also to the right, by what stands behind the last of these (`tokenize_append`).  A position moves along
with the text, character by character (`Position.moved_after`).
-/
namespace MiniLang

open Text (isWordChar WordClass)

/-- No run of word characters reaches over the seam between the texts. -/
def Parted [WordClass] (first second : String) : Prop :=
  first = "" ∨ second = "" ∨ (∀ c ∈ first.toList.getLast?, isWordChar c = false) ∨
    ∀ c ∈ second.toList.head?, isWordChar c = false

namespace Position

/-- The position in a text where that text is put behind another one. -/
def moved (front : List Char) (p : Position) : Position where
  line := p.line + front.count '\n'
  col := if p.line = 1 then p.col + (front.rtakeWhile (· != '\n')).length else p.col

variable {front : List Char} {p : Position}

theorem moved_start : start.moved front = start.behind front := by
  rw [behind_eq]
  rfl

/-- Only a line feed leaves the first line, and it starts a column of its own. -/
theorem moved_after (hp : 1 ≤ p.line) (c : Char) : (p.moved front).after c = (p.after c).moved front := by
  unfold after
  by_cases hc : c = '\n'
  · have hline : p.line + 1 ≠ 1 := by omega
    rw [if_pos hc, if_pos hc, moved, moved, if_neg hline, Nat.add_right_comm]
  · rw [if_neg hc, if_neg hc, moved, moved]
    by_cases hline : p.line = 1
    · rw [if_pos hline, if_pos hline, Nat.add_right_comm]
    · rw [if_neg hline, if_neg hline]

theorem one_le_line_behind (hp : 1 ≤ p.line) (w : List Char) : 1 ≤ (p.behind w).line := by
  rw [line_behind]
  omega

theorem moved_behind (hp : 1 ≤ p.line) (w : List Char) : (p.moved front).behind w = (p.behind w).moved front := by
  induction w generalizing p with
  | nil => rfl
  | cons c w ih =>
    have hafter : 1 ≤ (p.after c).line := one_le_line_behind hp [c]
    have hcons : ∀ q : Position, q.behind (c :: w) = (q.after c).behind w := fun _ => rfl
    rw [hcons, hcons, moved_after hp, ih hafter]

end Position

def Token.moved (front : List Char) (t : Token) : Token := { t with pos := t.pos.moved front }

/-! ## The tokens of segments -/

theorem tokenAt?_moved {front : List Char} {p : Position} (w : List Char) :
    tokenAt? (p.moved front) w = (tokenAt? p w).map (Token.moved front) := by
  rw [tokenAt?, tokenAt?, Option.map_map]
  rfl

theorem tokensAt_moved {front : List Char} : ∀ {ws : List (List Char)} {p : Position}, 1 ≤ p.line →
    tokensAt (p.moved front) ws = (tokensAt p ws).map (Token.moved front)
  | [], _, _ => rfl
  | w :: ws, p, hp => by
    have hrest : tokensAt ((p.behind w).moved front) ws = (tokensAt (p.behind w) ws).map (Token.moved front) :=
      tokensAt_moved (Position.one_le_line_behind hp w)
    rw [tokensAt, tokensAt, tokenAt?_moved, Position.moved_behind hp, hrest, List.map_append, Option.toList_map]

theorem tokensAt_append {us : List (List Char)} : ∀ {ws : List (List Char)} {p : Position},
    tokensAt p (ws ++ us) = tokensAt p ws ++ tokensAt (p.behind ws.flatten) us
  | [], _ => rfl
  | w :: ws, p => by
    rw [List.cons_append, tokensAt, tokensAt, tokensAt_append, List.flatten_cons, Position.behind_append,
      List.append_assoc]

theorem segments_of_parted [WordClass] {first second : String} (h : Parted first second) :
    segments (first.toList ++ second.toList) = segments first.toList ++ segments second.toList := by
  have hempty : segments [] = [] := rfl
  rcases h with rfl | rfl | hlast | hhead
  · exact rfl
  · rw [String.toList_empty, List.append_nil, hempty, List.append_nil]
  · refine segments_append (fun c hc d hd hword => ?_)
    rw [hlast c hc] at hword
    cases hword
  · exact segments_append (fun c hc d hd hword => hhead d hd)

/-- **Texts are read apart where no word goes on from one to the other**: the tokens of both in one are those of the
first, and behind them those of the second, each on a line further down by the line feeds of the first, and those of the
second's first line in a column further to the right by the characters behind the last of these line feeds. -/
theorem tokenize_append [WordClass] (first second : String) (h : Parted first second) :
    tokenize (first ++ second) = tokenize first ++ (tokenize second).map (Token.moved first.toList) := by
  have hcut : (segments first.toList).flatten = first.toList := (cut_iff.2 rfl).flatten
  have hread : ∀ text : String, tokenize text = tokensAt .start (segments text.toList) := lexicon_segmental.tokens_eq
  rw [hread, hread, hread, String.toList_append, segments_of_parted h, tokensAt_append, hcut, ← Position.moved_start,
    tokensAt_moved (Nat.le_refl 1)]

/-- The name ends at the seam and the first line of the second text goes on in the last of the first one. -/
theorem tokenize_append_arrow :
    tokenize ("int é;\r\n  x→" ++ "y2 =\n 1;") =
      [⟨.keyword, "int", ⟨1, 1⟩⟩, ⟨.semicolon, ";", ⟨1, 6⟩⟩, ⟨.identifier, "x", ⟨2, 3⟩⟩] ++
        [⟨.identifier, "y2", ⟨2, 5⟩⟩, ⟨.assign, "=", ⟨2, 8⟩⟩, ⟨.number, "1", ⟨3, 2⟩⟩, ⟨.semicolon, ";", ⟨3, 3⟩⟩] := by
  have hfirst : tokenize "int é;\r\n  x→" =
      [⟨.keyword, "int", ⟨1, 1⟩⟩, ⟨.semicolon, ";", ⟨1, 6⟩⟩, ⟨.identifier, "x", ⟨2, 3⟩⟩] := by decide +kernel
  have hsecond : tokenize "y2 =\n 1;" =
      [⟨.identifier, "y2", ⟨1, 1⟩⟩, ⟨.assign, "=", ⟨1, 4⟩⟩, ⟨.number, "1", ⟨2, 2⟩⟩, ⟨.semicolon, ";", ⟨2, 3⟩⟩] := by
    decide +kernel
  have hparted : Parted "int é;\r\n  x→" "y2 =\n 1;" := by
    have hlast : "int é;\r\n  x→".toList.getLast? = some '→' := rfl
    refine .inr (.inr (.inl ?_))
    rw [hlast]
    intro c hc
    obtain rfl := Option.some.inj hc
    decide +kernel
  rw [tokenize_append _ _ hparted, hfirst, hsecond]
  decide +kernel

end MiniLang
