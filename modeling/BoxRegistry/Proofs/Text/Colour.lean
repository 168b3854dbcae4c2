import BoxRegistry.Text.Colour

/-!
This module contains what is left of a line of text and control sequences without its color sequences. A control
sequence of another kind is taken for a color sequence that is not over yet, so it takes away the text up to the next
`m`, wherever that stands.
-/

namespace BoxRegistry.Text.Colour

/--
A control sequence of a terminal: an escape and a bracket, some parameters, and a character that tells what it is for.
-/
structure Control where
  params : List Char
  final : Char
  isParam : ∀ c ∈ params, 0x30 ≤ c.toNat ∧ c.toNat ≤ 0x3F
  isFinal : 0x40 ≤ final.toNat ∧ final.toNat ≤ 0x7E

namespace Control

def IsColour (s : Control) : Prop :=
  s.final = 'm'

instance (s : Control) : Decidable s.IsColour :=
  inferInstanceAs (Decidable (_ = _))

def written (s : Control) : List Char :=
  escape :: '[' :: (s.params ++ [s.final])

end Control

structure Chunk where
  chars : List Char
  plain : escape ∉ chars

inductive Piece where
  | text (t : Chunk)
  | control (s : Control)

namespace Piece

def written : Piece → List Char
  | text t => t.chars
  | control s => s.written

def chars : Piece → List Char
  | text t => t.chars
  | control _ => []

def control? : Piece → Option Control
  | text _ => none
  | control s => some s

end Piece

def line (pieces : List Piece) : String :=
  String.ofList (pieces.flatMap Piece.written)

def chars (pieces : List Piece) : List Char :=
  pieces.flatMap Piece.chars

def controls (pieces : List Piece) : List Control :=
  pieces.filterMap Piece.control?

def shown : (muted : Bool) → List Piece → List Char
  | _, [] => []
  | false, .text t :: pieces => t.chars ++ shown false pieces
  | true, .text t :: pieces =>
    if 'm' ∈ t.chars then (t.chars.dropWhile (· ≠ 'm')).tail ++ shown false pieces else shown true pieces
  | _, .control s :: pieces => shown (!decide s.IsColour) pieces

def modeOf : (muted : Bool) → Mode
  | false => .text
  | true => .sequence

section Scan

variable {cs ds : List Char}

theorem stripFrom_text_append (h : escape ∉ cs) : stripFrom .text (cs ++ ds) = cs ++ stripFrom .text ds := by
  induction cs with
  | nil => rfl
  | cons c cs ih =>
    rw [List.mem_cons, not_or] at h
    rw [List.cons_append, stripFrom, if_neg (Ne.symm h.1), ih h.2]
    rfl

theorem stripFrom_sequence_append (h : 'm' ∉ cs)
    : stripFrom .sequence (cs ++ ds) = stripFrom .sequence ds := by
  induction cs with
  | nil => rfl
  | cons c cs ih =>
    rw [List.mem_cons, not_or] at h
    rw [List.cons_append, stripFrom, if_neg (Ne.symm h.1), ih h.2]

theorem stripFrom_sequence_of_mem (h : 'm' ∈ cs)
    : stripFrom .sequence (cs ++ ds) = stripFrom .text ((cs.dropWhile (· ≠ 'm')).tail ++ ds) := by
  induction cs with
  | nil => cases h
  | cons c cs ih =>
    by_cases hc : c = 'm'
    . subst hc
      rw [List.cons_append, stripFrom, if_pos rfl, List.dropWhile_cons_of_neg (by simp)]
      rfl
    . have hlater : 'm' ∈ cs := (List.mem_cons.mp h).resolve_left (Ne.symm hc)
      rw [List.cons_append, stripFrom, if_neg hc, ih hlater, List.dropWhile_cons_of_pos (by simpa using hc)]

theorem Control.m_notMem_params (s : Control) : 'm' ∉ s.params := by
  intro h
  have hle : 'm'.toNat ≤ 0x3F := (s.isParam 'm' h).2
  revert hle
  decide

theorem stripFrom_control (muted : Bool) (s : Control)
    : stripFrom (modeOf muted) (s.written ++ ds) = stripFrom (modeOf !decide s.IsColour) ds := by
  have hsequence : stripFrom (modeOf muted) (s.written ++ ds) = stripFrom .sequence ([s.final] ++ ds) := by
    rw [Control.written, List.cons_append, List.cons_append, List.append_assoc,
      ← stripFrom_sequence_append s.m_notMem_params]
    cases muted <;> rfl
  rw [hsequence, List.singleton_append, stripFrom]
  by_cases hcolour : s.final = 'm' <;> simp [Control.IsColour, modeOf, hcolour]

end Scan

theorem stripFrom_pieces (muted : Bool) (pieces : List Piece)
    : stripFrom (modeOf muted) (pieces.flatMap Piece.written) = shown muted pieces := by
  induction pieces generalizing muted with
  | nil => cases muted <;> rfl
  | cons piece pieces ih =>
    rw [List.flatMap_cons]
    cases piece with
    | control s =>
      rw [shown, ← ih]
      exact stripFrom_control muted s
    | text t =>
      cases muted with
      | false =>
        rw [shown, ← ih]
        exact stripFrom_text_append t.plain
      | true =>
        rw [shown]
        split
        . next hm =>
          -- What stands after the `m` is text again, in which no sequence begins.
          have hplain : escape ∉ (t.chars.dropWhile (· ≠ 'm')).tail := fun hmem =>
            t.plain ((List.dropWhile_sublist _).subset (List.mem_of_mem_tail hmem))
          rw [← ih]
          exact (stripFrom_sequence_of_mem hm).trans (stripFrom_text_append hplain)
        . next hm =>
          rw [← ih]
          exact stripFrom_sequence_append hm

theorem strip_line (pieces : List Piece) : strip (line pieces) = String.ofList (shown false pieces) := by
  rw [strip, line, String.toList_ofList]
  exact congrArg String.ofList (stripFrom_pieces false pieces)

theorem shown_sublist (muted : Bool) (pieces : List Piece) : (shown muted pieces).Sublist (chars pieces) := by
  induction pieces generalizing muted with
  | nil => cases muted <;> exact .slnil
  | cons piece pieces ih =>
    rw [chars, List.flatMap_cons]
    cases piece with
    | control s => exact ih _
    | text t =>
      cases muted with
      | false => exact (List.Sublist.refl t.chars).append (ih false)
      | true =>
        rw [shown]
        split
        . exact ((List.tail_sublist _).trans (List.dropWhile_sublist _)).append (ih false)
        . exact (ih true).trans (List.sublist_append_right _ _)

theorem escape_notMem_chars (pieces : List Piece) : escape ∉ chars pieces := by
  rw [chars, List.mem_flatMap]
  rintro ⟨piece, -, h⟩
  cases piece with
  | text t => exact t.plain h
  | control s => cases h

section Lossless

def EndsClear (muted : Bool) (before : List Piece) : Prop :=
  (controls before).getLast?.elim (muted = false) Control.IsColour

theorem endsClear_text (muted : Bool) (t : Chunk) (before : List Piece)
    : EndsClear muted (.text t :: before) ↔ EndsClear muted before :=
  Iff.rfl

theorem endsClear_control (muted : Bool) (s : Control) (before : List Piece)
    : EndsClear muted (.control s :: before) ↔ EndsClear (!decide s.IsColour) before := by
  have hcontrols : controls (.control s :: before) = s :: controls before := rfl
  rw [EndsClear, EndsClear, hcontrols, List.getLast?_cons]
  cases (controls before).getLast? <;> simp

/--
Every text that is not empty stands where the line is clear.
-/
def Undisturbed (muted : Bool) (pieces : List Piece) : Prop :=
  ∀ before t after, pieces = before ++ .text t :: after → t.chars ≠ [] → EndsClear muted before

theorem undisturbed_text (muted : Bool) (t : Chunk) (pieces : List Piece)
    : Undisturbed muted (.text t :: pieces) ↔ (t.chars ≠ [] → muted = false) ∧ Undisturbed muted pieces := by
  constructor
  . intro h
    refine ⟨h [] t pieces rfl, ?_⟩
    rintro before u after rfl hu
    exact (endsClear_text muted t before).mp (h (.text t :: before) u after rfl hu)
  . rintro ⟨hfirst, hrest⟩ before u after hsplit hu
    cases before with
    | nil =>
      cases hsplit
      exact hfirst hu
    | cons piece before =>
      cases hsplit
      exact (endsClear_text muted t before).mpr (hrest before u after rfl hu)

theorem undisturbed_control (muted : Bool) (s : Control) (pieces : List Piece)
    : Undisturbed muted (.control s :: pieces) ↔ Undisturbed (!decide s.IsColour) pieces := by
  constructor
  . rintro h before u after rfl hu
    exact (endsClear_control muted s before).mp (h (.control s :: before) u after rfl hu)
  . intro h before u after hsplit hu
    cases before with
    | nil => cases hsplit
    | cons piece before =>
      cases hsplit
      exact (endsClear_control muted s before).mpr (h before u after rfl hu)

theorem length_shown_muted_text {t : Chunk} (h : t.chars ≠ []) (pieces : List Piece)
    : (shown true (.text t :: pieces)).length < (t.chars ++ chars pieces).length := by
  have hpos := List.length_pos_iff.mpr h
  have hlength (muted : Bool) := (shown_sublist muted pieces).length_le
  rw [shown, List.length_append]
  split
  . have hcut := (List.dropWhile_sublist (l := t.chars) (· ≠ 'm')).length_le
    have := hlength false
    rw [List.length_append, List.length_tail]
    omega
  . have := hlength true
    omega

theorem shown_eq_chars_iff (muted : Bool) (pieces : List Piece)
    : shown muted pieces = chars pieces ↔ Undisturbed muted pieces := by
  induction pieces generalizing muted with
  | nil => cases muted <;> simp [shown, chars, Undisturbed]
  | cons piece pieces ih =>
    cases piece with
    | control s =>
      rw [undisturbed_control, ← ih]
      exact Iff.rfl
    | text t =>
      have hchars : chars (.text t :: pieces) = t.chars ++ chars pieces := rfl
      rw [undisturbed_text, ← ih, hchars]
      cases muted with
      | false => simp [shown]
      | true =>
        by_cases ht : t.chars = []
        . simp [shown, ht]
        . refine iff_of_false (fun heq => ?_) fun h => absurd (h.1 ht) (by decide)
          exact Nat.ne_of_lt (length_shown_muted_text ht pieces) (congrArg List.length heq)

theorem undisturbed_of_colours {pieces : List Piece} (h : ∀ s ∈ controls pieces, s.IsColour)
    : Undisturbed false pieces := by
  rintro before t after rfl -
  have hbefore : ∀ s ∈ controls before, s.IsColour := by
    intro s hs
    apply h
    rw [controls, List.filterMap_append]
    exact List.mem_append_left _ hs
  rw [EndsClear]
  cases hlast : (controls before).getLast? with
  | none => rfl
  | some s => exact hbefore s (List.mem_of_getLast? hlast)

end Lossless

/--
Of a line of text and control sequences, no escape is left, and nothing but text in its order: neither color sequences
nor others leave anything of themselves. All text is left exactly if the last control sequence before any of it is a
color sequence, if there is one, and so it is if there are no other control sequences. After another one, all is lost
up to the next `m`.
-/
theorem text_is_left_unless_disturbed (pieces : List Piece)
    : escape ∉ (strip (line pieces)).toList ∧
      (strip (line pieces)).toList.Sublist (chars pieces) ∧
      (strip (line pieces) = String.ofList (chars pieces) ↔ Undisturbed false pieces) ∧
      ((∀ s ∈ controls pieces, s.IsColour) → strip (line pieces) = String.ofList (chars pieces)) ∧
      strip (line pieces) = String.ofList (shown false pieces) := by
  have hsublist := shown_sublist false pieces
  have hiff : strip (line pieces) = String.ofList (chars pieces) ↔ Undisturbed false pieces := by
    rw [strip_line, String.ofList_inj]
    exact shown_eq_chars_iff false pieces
  refine ⟨?_, ?_, hiff, fun h => hiff.mpr (undisturbed_of_colours h), strip_line pieces⟩
  . rw [strip_line, String.toList_ofList]
    exact fun h => escape_notMem_chars pieces (hsublist.subset h)
  . rw [strip_line, String.toList_ofList]
    exact hsublist

theorem text_is_left_unless_disturbed_erasedLine
    : strip "\x1b[Kready" = "" ∧ strip "\x1b[2Kno more" = "ore" ∧
      strip "\x1b[32mINFO\x1b[0m ready" = "INFO ready" ∧
      ¬∀ pieces, strip (line pieces) = String.ofList (chars pieces) := by
  let erase (params : List Char) (h : ∀ c ∈ params, 0x30 ≤ c.toNat ∧ c.toNat ≤ 0x3F) : Piece :=
    .control ⟨params, 'K', h, by decide⟩
  let colour (params : List Char) (h : ∀ c ∈ params, 0x30 ≤ c.toNat ∧ c.toNat ≤ 0x3F) : Piece :=
    .control ⟨params, 'm', h, by decide⟩
  let text (chars : List Char) (h : escape ∉ chars) : Piece := .text ⟨chars, h⟩
  have hready := text_is_left_unless_disturbed [erase [] (by simp), text "ready".toList (by decide)]
  have hmore := text_is_left_unless_disturbed [erase ['2'] (by simp), text "no more".toList (by decide)]
  have hinfo := text_is_left_unless_disturbed
    [colour ['3', '2'] (by simp), text "INFO".toList (by decide), colour ['0'] (by simp),
      text " ready".toList (by decide)]
  refine ⟨hready.2.2.2.2, hmore.2.2.2.2, hinfo.2.2.2.1 (by decide), fun hall => ?_⟩
  have hlost := hready.2.2.2.2.symm.trans (hall _)
  revert hlost
  decide

end BoxRegistry.Text.Colour
