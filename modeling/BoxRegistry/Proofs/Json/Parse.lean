import BoxRegistry.Json.Printer
import BoxRegistry.Proofs.Numeric.Decimal

namespace BoxRegistry.Json

open Numeric (Decimal NoDigit noDigit_cons decimal_toDigits toList_toString)

namespace Reader

open Printer (escaped hexDigit)

section Strings

inductive Piece.Stands : Piece → Char → Prop where
  | char (c : Char) : Piece.Stands (.char c) c
  | unit (c : Char) (h : c.toNat < 0x20) : Piece.Stands (.unit c.toNat) c

theorem hexDigit?_hexDigit : ∀ n < 16, hexDigit? (hexDigit n) = some n := by
  decide

theorem hexUnit?_control {n : Nat} (h : n < 0x20)
    : hexUnit? '0' '0' (hexDigit (n / 16)) (hexDigit (n % 16)) = some n := by
  have hzero : hexDigit? '0' = some 0 := rfl
  have hhigh := hexDigit?_hexDigit (n / 16) (by omega)
  have hlow := hexDigit?_hexDigit (n % 16) (by omega)
  simp only [hexUnit?, hzero, hhigh, hlow, Option.bind_eq_bind, Option.bind_some, Option.pure_def, Option.some.injEq]
  omega

theorem pieces_go_escaped (c : Char)
    : ∃ p, Piece.Stands p c ∧ ∀ acc rest, pieces.go acc (escaped c ++ rest) = pieces.go (p :: acc) rest := by
  unfold escaped
  split
  case h_8 _ hquote hslash _ _ _ _ _ =>
    split
    . next hcontrol =>
      refine ⟨.unit c.toNat, .unit c hcontrol, fun acc rest => ?_⟩
      simp only [List.cons_append, List.nil_append, pieces.go, hexUnit?_control hcontrol]
    . next hplain =>
      refine ⟨.char c, .char c, fun acc rest => ?_⟩
      rw [List.cons_append, List.nil_append, pieces.go]
      . rw [if_neg hplain]
      . exact hquote
      . rintro a b c' d rest h hcons
        exact hslash h
      . intro e rest h
        exact absurd h hslash
  all_goals exact ⟨.char _, .char _, fun _ _ => rfl⟩

theorem pieces_go_written (cs rest : List Char) : ∃ ps, List.Forall₂ Piece.Stands ps cs
    ∧ ∀ acc, pieces.go acc (cs.flatMap escaped ++ '"' :: rest) = some (acc.reverse ++ ps, rest) := by
  induction cs with
  | nil => exact ⟨[], .nil, fun acc => by simp [pieces.go]⟩
  | cons c cs ih =>
    rcases pieces_go_escaped c with ⟨p, hp, hstep⟩
    rcases ih with ⟨ps, hps, hgo⟩
    refine ⟨p :: ps, .cons hp hps, fun acc => ?_⟩
    rw [List.flatMap_cons, List.append_assoc, hstep, hgo, List.reverse_cons, List.append_assoc, List.singleton_append]

theorem characters_go_unit (acc : List Char) {n : Nat} (h : n < 0x20) (ps : List Piece)
    : characters.go acc (.unit n :: ps) = characters.go (Char.ofNat n :: acc) ps := by
  have hlow : ¬(0xD800 ≤ n ∧ n < 0xE000) := by omega
  have hpair (l : Nat) : ¬(0xD800 ≤ n ∧ n < 0xDC00 ∧ 0xDC00 ≤ l ∧ l < 0xE000) := by omega
  rcases ps with - | ⟨_ | l, ps⟩
  all_goals simp only [characters.go, if_neg hlow]
  rw [if_neg (hpair l)]

theorem characters_go_stands {ps : List Piece} {cs : List Char} (h : List.Forall₂ Piece.Stands ps cs) (acc : List Char)
    : characters.go acc ps = some (acc.reverse ++ cs) := by
  induction h generalizing acc with
  | nil => simp [characters.go]
  | cons hp _ ih =>
    cases hp with
    | char c => rw [characters.go, ih, List.reverse_cons, List.append_assoc, List.singleton_append]
    | unit c h =>
      rw [characters_go_unit acc h, ih, Char.ofNat_toNat, List.reverse_cons, List.append_assoc, List.singleton_append]

theorem string_written (text : String) (rest : List Char)
    : string (text.toList.flatMap escaped ++ '"' :: rest) = some (some text, rest) := by
  rcases pieces_go_written text.toList rest with ⟨ps, hps, hgo⟩
  simp only [string, pieces, characters, hgo, List.reverse_nil, List.nil_append, Option.bind_eq_bind, Option.bind_some,
    characters_go_stands hps, Option.map_some, String.ofList_toList, Option.pure_def]

theorem key_written (k : Option String) (rest : List Char)
    : ∃ cs, (Printer.key k).toList = '"' :: cs ∧ string (cs ++ rest) = some (k, rest) := by
  cases k with
  | none => exact ⟨_, rfl, rfl⟩
  | some text =>
    refine ⟨text.toList.flatMap escaped ++ ['"'], ?_, ?_⟩
    . simp [Printer.key, Printer.string]
    . rw [List.append_assoc, List.singleton_append, string_written]

end Strings

section Numbers

def Ends (cs : List Char) : Prop :=
  ∀ c rest, cs = c :: rest → c.isDigit = false ∧ c ≠ '.' ∧ c ≠ 'e' ∧ c ≠ 'E'

theorem Ends.noDigit {cs : List Char} (h : Ends cs) : NoDigit cs :=
  fun c rest hcons => (h c rest hcons).1

theorem ends_nil : Ends [] := by
  intro c rest h
  cases h

def fractionText (ds : List Nat) : List Char :=
  if ds.isEmpty then [] else '.' :: ds.map Nat.digitChar

def exponentText : Option Int → List Char
  | none => []
  | some e => 'e' :: (toString e).toList

theorem toList_number {n : Number} (h : ∀ d ∈ n.fraction, d < 10)
    : (Printer.number n).toList
        =
      (if n.negative then ['-'] else []) ++ (Nat.toDigits 10 n.whole ++ (fractionText n.fraction
        ++ exponentText n.exponent)) := by
  have hdigit : n.fraction.map toString = n.fraction.map fun d => String.ofList [Nat.digitChar d] :=
    List.map_congr_left fun d hd => by rw [Nat.toString_eq_ofList_toDigits, Nat.toDigits_of_lt_base (h d hd)]
  have hjoin : (String.join (n.fraction.map toString)).toList = n.fraction.map Nat.digitChar := by
    rw [hdigit, String.toList_join, List.flatMap_map, List.map_eq_flatMap]
    simp only [String.toList_ofList]
  have hsign : (if n.negative then "-" else "").toList = if n.negative then ['-'] else [] := by
    cases n.negative <;> rfl
  have hpoint : (if n.fraction.isEmpty then "" else "." ++ String.join (n.fraction.map toString)).toList
      = fractionText n.fraction := by
    unfold fractionText
    cases n.fraction.isEmpty
    . rw [if_neg Bool.false_ne_true, if_neg Bool.false_ne_true, String.toList_append, hjoin]
      rfl
    . rfl
  rw [Printer.number, String.toList_append, String.toList_append, String.toList_append, hsign, hpoint, toList_toString]
  cases n.exponent <;> simp [exponentText]

theorem noDigit_fractionText (ds : List Nat) {cs : List Char} (h : NoDigit cs) : NoDigit (fractionText ds ++ cs) := by
  cases ds with
  | nil => exact h
  | cons d ds => exact noDigit_cons rfl

theorem noDigit_exponentText (e : Option Int) {cs : List Char} (h : NoDigit cs) : NoDigit (exponentText e ++ cs) := by
  cases e with
  | none => exact h
  | some e => exact noDigit_cons rfl

theorem digits_digitChars {ds : List Nat} (hds : ∀ d ∈ ds, d < 10) {rest : List Char} (hrest : NoDigit rest)
    : digits (ds.map Nat.digitChar ++ rest) = (ds, rest) := by
  have hdigit : ∀ c ∈ ds.map Nat.digitChar, c.isDigit = true := by
    intro c hc
    rcases List.mem_map.mp hc with ⟨d, hd, rfl⟩
    rw [Nat.isDigit_digitChar, decide_eq_true (hds d hd)]
  have hvalue : (ds.map Nat.digitChar).map digitValue = ds := by
    rw [List.map_map]
    refine (List.map_congr_left fun d hd => ?_).trans (List.map_id ds)
    exact Nat.toNat_digitChar_sub_48_of_lt_ten (hds d hd)
  rw [digits_append hdigit hrest, hvalue]

theorem fraction_written {ds : List Nat} (hds : ∀ d ∈ ds, d < 10) {rest : List Char} (hdigit : NoDigit rest)
    (hpoint : ∀ cs, rest ≠ '.' :: cs) : fraction (fractionText ds ++ rest) = some (ds, rest) := by
  cases ds with
  | nil =>
    rw [fractionText, List.isEmpty_nil, if_pos rfl, List.nil_append, fraction.eq_def]
    split
    . exact absurd rfl (hpoint _)
    . rfl
  | cons d ds =>
    simp only [fractionText, List.isEmpty_cons, Bool.false_eq_true, if_false, List.cons_append, fraction,
      digits_digitChars hds hdigit]

theorem exponentDigits_written (negative : Bool) (n : Nat) {rest : List Char} (hrest : NoDigit rest)
    : exponentDigits negative (Nat.toDigits 10 n ++ rest) = some (some (if negative then -(n : Int) else n), rest) := by
  rw [exponentDigits, digits_append (decimal_toDigits n).isDigit hrest]
  cases hdigits : (Nat.toDigits 10 n).map digitValue with
  | nil => exact absurd (List.map_eq_nil_iff.mp hdigits) Nat.toDigits_ne_nil
  | cons d ds =>
    simp only [← hdigits, ofDigits_map_digitValue, (decimal_toDigits n).value]

theorem exponent_of_ends {cs : List Char} (h : Ends cs) : exponent cs = some (none, cs) := by
  rw [exponent.eq_def]
  split
  case h_7 => rfl
  all_goals
    first
    | exact absurd rfl (h 'e' _ rfl).2.2.1
    | exact absurd rfl (h 'E' _ rfl).2.2.2

theorem exponent_of_isDigit {c : Char} (h : c.isDigit = true) (cs : List Char)
    : exponent ('e' :: c :: cs) = exponentDigits false (c :: cs) := by
  rw [exponent]
  all_goals
    intro rest hcons
    cases hcons
    exact absurd h (by decide)

theorem exponent_written (e : Option Int) {rest : List Char} (hrest : Ends rest)
    : exponent (exponentText e ++ rest) = some (e, rest) := by
  rcases e with - | ⟨n | n⟩
  . exact exponent_of_ends hrest
  . have hread := exponentDigits_written false n hrest.noDigit
    have hdigit := (decimal_toDigits n).isDigit
    have htext : exponentText (some (Int.ofNat n)) = 'e' :: Nat.toDigits 10 n := by
      rw [← toList_toString]
      rfl
    rw [htext]
    rcases hcs : Nat.toDigits 10 n with - | ⟨c, cs⟩
    . exact absurd hcs Nat.toDigits_ne_nil
    . rw [hcs] at hread hdigit
      exact (exponent_of_isDigit (hdigit c List.mem_cons_self) _).trans hread
  . have htext : exponentText (some (Int.negSucc n)) = 'e' :: '-' :: Nat.toDigits 10 (n + 1) := by
      rw [← toList_toString]
      simp only [exponentText, Int.toString_eq_repr, Int.repr, String.toList_append]
      rfl
    rw [htext]
    exact exponentDigits_written true (n + 1) hrest.noDigit

theorem unsigned_written (negative : Bool) {n : Number} (h : ∀ d ∈ n.fraction, d < 10) {rest : List Char}
    (hrest : Ends rest)
    : unsigned negative (Nat.toDigits 10 n.whole ++ (fractionText n.fraction ++ exponentText n.exponent) ++ rest)
        =
      some ({ n with negative }, rest) := by
  have hexponent : NoDigit (exponentText n.exponent ++ rest) := noDigit_exponentText _ hrest.noDigit
  have hpoint : ∀ cs, exponentText n.exponent ++ rest ≠ '.' :: cs := by
    intro cs hcons
    rcases hn : n.exponent with - | e
    . rw [hn] at hcons
      exact (hrest '.' cs hcons).2.1 rfl
    . rw [hn] at hcons
      cases hcons
  rw [List.append_assoc, List.append_assoc, unsigned,
    digits_append (decimal_toDigits n.whole).isDigit (noDigit_fractionText _ hexponent)]
  split
  . next hnil => exact absurd (List.map_eq_nil_iff.mp (congrArg Prod.fst hnil)) Nat.toDigits_ne_nil
  . next hzero => exact absurd (congrArg Prod.fst hzero) (map_digitValue_toDigits_ne _ _ _)
  . next hdigits =>
    rcases Prod.mk.inj hdigits with ⟨rfl, rfl⟩
    simp only [fraction_written h hexponent hpoint, exponent_written _ hrest, Option.bind_eq_bind, Option.bind_some,
      Option.pure_def, ofDigits_map_digitValue, (decimal_toDigits n.whole).value]

theorem number_written {n : Number} (h : ∀ d ∈ n.fraction, d < 10) {rest : List Char} (hrest : Ends rest)
    : number ((Printer.number n).toList ++ rest) = some (n, rest) := by
  have hunsigned := unsigned_written n.negative h hrest
  rw [toList_number h, List.append_assoc]
  cases hnegative : n.negative with
  | true =>
    rw [hnegative] at hunsigned
    exact hunsigned.trans (by rw [← hnegative])
  | false =>
    rw [hnegative] at hunsigned
    rw [if_neg Bool.false_ne_true, List.nil_append, number.eq_def]
    split
    . next cs hminus =>
      -- No digit is a sign.
      rcases hcs : Nat.toDigits 10 n.whole with - | ⟨c, cs⟩
      . exact absurd hcs Nat.toDigits_ne_nil
      . rw [hcs] at hminus
        have hdigit := (decimal_toDigits n.whole).isDigit c (by rw [hcs]; exact List.mem_cons_self)
        rw [(List.cons.inj hminus).1] at hdigit
        exact absurd hdigit (by decide)
    . exact hunsigned.trans (by rw [← hnegative])

end Numbers

end Reader

mutual

def WellFormed : Json → Prop
  | .number n => ∀ d ∈ n.fraction, d < 10
  | .array items => WellFormedItems items
  | .object fields => WellFormedFields fields
  | .null | .bool _ | .string _ | .unpaired => True

def WellFormedItems : List Json → Prop
  | [] => True
  | item :: items => item.WellFormed ∧ WellFormedItems items

def WellFormedFields : List (Option String × Json) → Prop
  | [] => True
  | (_, item) :: fields => item.WellFormed ∧ WellFormedFields fields

end

namespace Reader

section Values

def text (json : Json) : List Char :=
  (Printer.value json).toList

def itemsText (items : List Json) : List Char :=
  (",".intercalate (Printer.items items)).toList

def fieldsText (fields : List (Option String × Json)) : List Char :=
  (",".intercalate (Printer.fields fields)).toList

theorem text_array (items : List Json) : text (.array items) = '[' :: (itemsText items ++ [']']) := by
  simp [text, itemsText, Printer.value]

theorem text_object (fields : List (Option String × Json))
    : text (.object fields) = '\x7b' :: (fieldsText fields ++ ['\x7d']) := by
  simp [text, fieldsText, Printer.value]

theorem itemsText_cons (item : Json) (items : List Json)
    : itemsText (item :: items) = text item ++ if items.isEmpty then [] else ',' :: itemsText items := by
  cases items <;> simp [itemsText, text, Printer.items]

theorem fieldsText_cons (k : Option String) (item : Json) (fields : List (Option String × Json))
    : fieldsText ((k, item) :: fields)
        =
      (Printer.key k).toList ++ ':' :: (text item ++ if fields.isEmpty then [] else ',' :: fieldsText fields) := by
  rcases fields with - | ⟨⟨k', item'⟩, fields⟩ <;> simp [fieldsText, text, Printer.fields]

theorem skip_cons {c : Char} (h : isSpace c = false) (cs : List Char) : skip (c :: cs) = c :: cs := by
  simp [skip, h]

def startsNumber (c : Char) : Bool :=
  c = '-' || c.isDigit

theorem number_head (n : Number) (h : ∀ d ∈ n.fraction, d < 10)
    : ∃ c cs, (Printer.number n).toList = c :: cs ∧ startsNumber c = true := by
  rw [toList_number h]
  cases n.negative with
  | true => exact ⟨_, _, rfl, rfl⟩
  | false =>
    rcases hcs : Nat.toDigits 10 n.whole with - | ⟨c, cs⟩
    . exact absurd hcs Nat.toDigits_ne_nil
    . have hdigit := (decimal_toDigits n.whole).isDigit c (by rw [hcs]; exact List.mem_cons_self)
      exact ⟨c, _, rfl, by simp [startsNumber, hdigit]⟩

theorem isSpace_of_startsNumber {c : Char} (h : startsNumber c = true) : isSpace c = false := by
  rw [Bool.eq_false_iff]
  intro hspace
  simp only [isSpace, Bool.or_eq_true, decide_eq_true_eq] at hspace
  rcases hspace with ((rfl | rfl) | rfl) | rfl <;> exact absurd h (by decide)

theorem text_head {json : Json} (h : json.WellFormed)
    : ∃ c cs, text json = c :: cs ∧ isSpace c = false ∧ c ≠ ']' := by
  cases json with
  | null => exact ⟨_, _, rfl, rfl, by decide⟩
  | bool b => cases b <;> exact ⟨_, _, rfl, rfl, by decide⟩
  | number n =>
    rcases number_head n h with ⟨c, cs, htext, hc⟩
    refine ⟨c, cs, htext, isSpace_of_startsNumber hc, ?_⟩
    rintro rfl
    exact absurd hc (by decide)
  | string s =>
    rcases key_written (some s) [] with ⟨cs, htext, -⟩
    exact ⟨_, cs, htext, rfl, by decide⟩
  | unpaired => exact ⟨_, _, rfl, rfl, by decide⟩
  | array items => exact ⟨_, _, text_array items, rfl, by decide⟩
  | object fields => exact ⟨_, _, text_object fields, rfl, by decide⟩

theorem value_number {c : Char} (h : startsNumber c = true) (fuel : Nat) (cs : List Char)
    : value (fuel + 1) (c :: cs) = (number (c :: cs)).map fun read => (.number read.1, read.2) := by
  rw [value, skip_cons (isSpace_of_startsNumber h)]
  split
  case h_7 => cases number (c :: cs) <;> rfl
  all_goals
    next hcons =>
      rw [(List.cons.inj hcons).1] at h
      exact absurd h (by decide)

theorem value_key {cs rest : List Char} {k : Option String} (h : string cs = some (k, rest)) (fuel : Nat)
    : value (fuel + 1) ('"' :: cs) = some (k.elim .unpaired .string, rest) := by
  rw [value, skip_cons (by rfl)]
  simp only [h, Option.bind_eq_bind, Option.bind_some, Option.pure_def]

theorem value_array {c : Char} (hspace : isSpace c = false) (hend : c ≠ ']') (fuel : Nat) (cs : List Char)
    : value (fuel + 1) ('[' :: c :: cs) = items fuel [] (c :: cs) := by
  rw [value, skip_cons (by rfl)]
  simp only [skip_cons hspace]
  split
  . next hcons => exact absurd (List.cons.inj hcons).1 hend
  . rfl

theorem value_object (fuel : Nat) (cs : List Char)
    : value (fuel + 1) ('\x7b' :: '"' :: cs) = fields fuel [] ('"' :: cs) := by
  rw [value, skip_cons (by rfl)]
  simp only [skip_cons (show isSpace '"' = false from rfl)]
  rfl

section Steps

variable {fuel : Nat} {cs cs' rest : List Char} {item : Json} {k : Option String}

theorem items_last (h : value fuel cs = some (item, ']' :: rest)) (acc : List Json)
    : items (fuel + 1) acc cs = some (.array (item :: acc).reverse, rest) := by
  rw [items, h, Option.bind_eq_bind, Option.bind_some]
  simp only [skip_cons (show isSpace ']' = false from rfl), Option.pure_def]

theorem items_more (h : value fuel cs = some (item, ',' :: rest)) (acc : List Json)
    : items (fuel + 1) acc cs = items fuel (item :: acc) rest := by
  rw [items, h, Option.bind_eq_bind, Option.bind_some]
  simp only [skip_cons (show isSpace ',' = false from rfl)]

theorem fields_last (hkey : string cs = some (k, ':' :: cs')) (h : value fuel cs' = some (item, '\x7d' :: rest))
    (acc : List (Option String × Json))
    : fields (fuel + 1) acc ('"' :: cs) = some (.object ((k, item) :: acc).reverse, rest) := by
  rw [fields, skip_cons (by rfl)]
  simp only [hkey, h, Option.bind_eq_bind, Option.bind_some, skip_cons (show isSpace ':' = false from rfl),
    skip_cons (show isSpace '\x7d' = false from rfl), Option.pure_def]

theorem fields_more (hkey : string cs = some (k, ':' :: cs')) (h : value fuel cs' = some (item, ',' :: rest))
    (acc : List (Option String × Json))
    : fields (fuel + 1) acc ('"' :: cs) = fields fuel ((k, item) :: acc) rest := by
  rw [fields, skip_cons (by rfl)]
  simp only [hkey, h, Option.bind_eq_bind, Option.bind_some, skip_cons (show isSpace ':' = false from rfl),
    skip_cons (show isSpace ',' = false from rfl)]

end Steps

theorem ends_cons {c : Char} (h : c = ',' ∨ c = ']' ∨ c = '\x7d') (cs : List Char) : Ends (c :: cs) := by
  intro c' rest hcons
  rw [← (List.cons.inj hcons).1]
  rcases h with rfl | rfl | rfl <;> decide

def TakesValues (fuel : Nat) : Prop :=
  ∀ json rest, json.WellFormed → (text json).length ≤ fuel → Ends rest →
    value fuel (text json ++ rest) = some (json, rest)

def TakesItems (fuel : Nat) : Prop :=
  ∀ items item acc rest, item.WellFormed → WellFormedItems items → (itemsText (item :: items)).length < fuel →
    Reader.items fuel acc (itemsText (item :: items) ++ ']' :: rest)
        =
      some (.array (acc.reverse ++ item :: items), rest)

def TakesFields (fuel : Nat) : Prop :=
  ∀ fields k item acc rest, item.WellFormed → WellFormedFields fields →
    (fieldsText ((k, item) :: fields)).length < fuel →
    Reader.fields fuel acc (fieldsText ((k, item) :: fields) ++ '\x7d' :: rest)
        =
      some (.object (acc.reverse ++ (k, item) :: fields), rest)

theorem takesItems_succ {fuel : Nat} (hvalues : TakesValues fuel) (hitems : TakesItems fuel)
    : TakesItems (fuel + 1) := by
  intro items item acc rest h hs hfuel
  rw [itemsText_cons, List.length_append] at hfuel
  rw [itemsText_cons, List.append_assoc]
  cases items with
  | nil =>
    have hvalue := hvalues item (']' :: rest) h (by omega) (ends_cons (by simp) _)
    rw [List.isEmpty_nil, if_pos rfl, List.nil_append, items_last hvalue, List.reverse_cons]
  | cons item' items =>
    rw [List.isEmpty_cons, if_neg Bool.false_ne_true] at hfuel ⊢
    rw [List.length_cons] at hfuel
    have hvalue := hvalues item (',' :: (itemsText (item' :: items) ++ ']' :: rest)) h (by omega)
      (ends_cons (by simp) _)
    rw [List.cons_append, items_more hvalue, hitems items item' _ rest hs.1 hs.2 (by omega), List.reverse_cons,
      List.append_assoc, List.singleton_append]

theorem takesFields_succ {fuel : Nat} (hvalues : TakesValues fuel) (hfields : TakesFields fuel)
    : TakesFields (fuel + 1) := by
  intro fields k item acc rest h hs hfuel
  rw [fieldsText_cons, List.length_append, List.length_cons, List.length_append] at hfuel
  rw [fieldsText_cons, List.append_assoc, List.cons_append, List.append_assoc]
  cases fields with
  | nil =>
    have hvalue := hvalues item ('\x7d' :: rest) h (by omega) (ends_cons (by simp) _)
    rcases key_written k (':' :: (text item ++ '\x7d' :: rest)) with ⟨cs, htext, hkey⟩
    rw [htext, List.isEmpty_nil, if_pos rfl, List.nil_append, List.cons_append, fields_last hkey hvalue,
      List.reverse_cons]
  | cons field fields =>
    rcases field with ⟨k', item'⟩
    rw [List.isEmpty_cons, if_neg Bool.false_ne_true] at hfuel ⊢
    rw [List.length_cons] at hfuel
    have hvalue := hvalues item (',' :: (fieldsText ((k', item') :: fields) ++ '\x7d' :: rest)) h (by omega)
      (ends_cons (by simp) _)
    rcases key_written k (':' :: (text item ++ ',' :: (fieldsText ((k', item') :: fields) ++ '\x7d' :: rest))) with
      ⟨cs, htext, hkey⟩
    rw [htext, List.cons_append, List.cons_append, fields_more hkey hvalue,
      hfields fields k' item' _ rest hs.1 hs.2 (by omega), List.reverse_cons, List.append_assoc, List.singleton_append]

theorem takesValues_succ {fuel : Nat} (hitems : TakesItems fuel) (hfields : TakesFields fuel)
    : TakesValues (fuel + 1) := by
  intro json rest h hfuel hrest
  cases json with
  | null | unpaired => rfl
  | bool b => cases b <;> rfl
  | number n =>
    have hnumber := number_written h hrest
    rcases number_head n h with ⟨c, cs, htext, hc⟩
    rw [htext, List.cons_append] at hnumber
    rw [show text (.number n) = c :: cs from htext, List.cons_append, value_number hc, hnumber]
    rfl
  | string s =>
    rcases key_written (some s) rest with ⟨cs, htext, hkey⟩
    rw [show text (.string s) = '"' :: cs from htext]
    exact value_key hkey fuel
  | array items =>
    cases items with
    | nil => rfl
    | cons item items =>
      rw [text_array, List.length_cons, List.length_append, List.length_singleton] at hfuel
      have htaken := hitems items item [] rest h.1 h.2 (by omega)
      rcases text_head h.1 with ⟨c, cs, htext, hspace, hend⟩
      rw [itemsText_cons, htext, List.cons_append] at htaken
      rw [text_array, itemsText_cons, htext, List.cons_append, List.cons_append, List.append_assoc,
        List.singleton_append, List.cons_append, value_array hspace hend]
      exact htaken
  | object fields =>
    rcases fields with - | ⟨⟨k, item⟩, fields⟩
    . rfl
    . rw [text_object, List.length_cons, List.length_append, List.length_singleton] at hfuel
      have htaken := hfields fields k item [] rest h.1 h.2 (by omega)
      rcases key_written k [] with ⟨cs, htext, -⟩
      rw [fieldsText_cons, htext, List.cons_append] at htaken
      rw [text_object, fieldsText_cons, htext, List.cons_append, List.cons_append, List.append_assoc,
        List.singleton_append, List.cons_append, value_object]
      exact htaken

/--
The fuel of the reader lasts, for every part of a list or of an object takes up a character, and what is around it two.
-/
theorem takes_written (fuel : Nat) : TakesValues fuel ∧ TakesItems fuel ∧ TakesFields fuel := by
  induction fuel with
  | zero =>
    refine ⟨fun json rest h hfuel _ => ?_, fun _ _ _ _ _ _ hfuel => ?_, fun _ _ _ _ _ _ _ hfuel => ?_⟩
    . rcases text_head h with ⟨c, cs, htext, -⟩
      rw [htext] at hfuel
      cases hfuel
    . cases hfuel
    . cases hfuel
  | succ fuel ih =>
    rcases ih with ⟨hvalues, hitems, hfields⟩
    exact ⟨takesValues_succ hitems hfields, takesItems_succ hvalues hitems, takesFields_succ hvalues hfields⟩

end Values

end Reader

theorem parse?_compact {json : Json} (h : json.WellFormed) : parse? json.compact = some json := by
  have hlength : (Reader.text json).length ≤ 2 * json.compact.toList.length + 2 := by
    have htext : Reader.text json = json.compact.toList := rfl
    rw [htext]
    omega
  have hread := (Reader.takes_written _).1 json [] h hlength Reader.ends_nil
  rw [List.append_nil] at hread
  simp only [parse?, show json.compact.toList = Reader.text json from rfl] at hread ⊢
  rw [hread]
  rfl

end BoxRegistry.Json
