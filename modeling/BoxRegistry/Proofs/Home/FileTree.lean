import BoxRegistry.Home.FileTree
import BoxRegistry.Proofs.Basic
import Mathlib.Data.List.DropRight

namespace BoxRegistry

namespace FileTree

variable {t t' t'' : FileTree} {place target : Place} {name path : String} {parts : List String}

section Put

theorem ne_nil_of_free (h : t.entry? place = none) : place ≠ [] := by
  rintro rfl
  cases h

theorem entry?_put_self (t : FileTree) (h : place ≠ []) (entry : Entry)
    : entry? (t.put place entry) place = some entry := by
  have hnonempty : place.isEmpty = false := by simpa using h
  simp [put, entry?, hnonempty]

theorem entry?_put_of_ne (h : target ≠ place) (entry : Entry)
    : entry? (t.put place entry) target = t.entry? target := by
  have hne : (target == place) = false := by simpa using h
  simp only [put, entry?, List.lookup_cons, hne, lookup_filter_ne, if_neg h]

end Put

section Extends

/--
A tree in which everything is as it is in another one, but in which there may be more.
-/
structure Extends (t t' : FileTree) : Prop where
  origin : t'.origin = t.origin
  entry? : ∀ place e, t.entry? place = some e → t'.entry? place = some e

theorem Extends.refl (t : FileTree) : t.Extends t := ⟨rfl, fun _ _ h => h⟩

theorem Extends.trans (h : t.Extends t') (h' : t'.Extends t'') : t.Extends t'' where
  origin := h'.origin.trans h.origin
  entry? place e he := h'.entry? place e (h.entry? place e he)

theorem extends_put (h : t.entry? place = none) (entry : Entry) : t.Extends (t.put place entry) where
  origin := rfl
  entry? p e he := by
    rw [entry?_put_of_ne _ entry, he]
    rintro rfl
    rw [h] at he
    cases he

theorem child_eq_ok
    : t.child place name = .ok target ↔
      t.entry? place = some .directory ∧ name.utf8ByteSize ≤ nameLimit ∧ place ++ [name] = target := by
  unfold child isDirectoryAt
  split
  . next hdirectory => simp_all
  . next hdirectory =>
    split
    . next hlong =>
      have : ¬name.utf8ByteSize ≤ nameLimit := by omega
      simp [this]
    . next hshort =>
      have : name.utf8ByteSize ≤ nameLimit := by omega
      simp_all

theorem Extends.child (h : t.Extends t') (hchild : t.child place name = .ok target) : t'.child place name = .ok target := by
  rw [child_eq_ok] at *
  exact ⟨h.entry? _ _ hchild.1, hchild.2⟩

end Extends

section Walk

def stride (t : FileTree) (place : Place) (part : String) : Except PathFailure Place := do
  let next ← t.child place part
  if part = "" ∨ part = "." then pure place
  else if part = ".." then pure place.dropLast
  else if (t.entry? next).isSome then pure next
  else throw .missing

theorem walk_cons (t : FileTree) (place : Place) (part : String) (rest : List String)
    : t.walk place (part :: rest) = t.stride place part >>= fun next => t.walk next rest := by
  simp only [walk, stride, bind_assoc]
  congr 1
  funext next
  split
  . rfl
  . split
    . rfl
    . split <;> rfl

theorem walk_append (t : FileTree) (place : Place) (front back : List String)
    : t.walk place (front ++ back) = t.walk place front >>= fun next => t.walk next back := by
  induction front generalizing place with
  | nil => rfl
  | cons part front ih =>
    rw [List.cons_append, walk_cons, walk_cons, bind_assoc]
    congr 1
    funext next
    exact ih next

inductive Strides (t : FileTree) (place : Place) (part : String) : Place → Prop where
  | stays {next : Place} (child : t.child place part = .ok next) (dot : part = "" ∨ part = ".") :
    Strides t place part place
  | back {next : Place} (child : t.child place part = .ok next) (dots : part = "..") :
    Strides t place part place.dropLast
  | goes {next : Place} {e : Entry} (child : t.child place part = .ok next) (named : part ∉ ["", ".", ".."])
    (there : t.entry? next = some e) : Strides t place part next

theorem stride_eq_ok : t.stride place name = .ok target ↔ t.Strides place name target := by
  constructor
  . intro hstride
    unfold stride at hstride
    cases hchild : t.child place name with
    | error f =>
      rw [hchild] at hstride
      cases hstride
    | ok next =>
      rw [hchild] at hstride
      simp only [bind, Except.bind, pure, Except.pure] at hstride
      split at hstride
      . next hdot =>
        cases hstride
        exact .stays hchild hdot
      . next hdot =>
        split at hstride
        . next hdots =>
          cases hstride
          exact .back hchild hdots
        . next hdots =>
          split at hstride
          . next hthere =>
            cases hstride
            rcases Option.isSome_iff_exists.mp hthere with ⟨e, he⟩
            refine .goes hchild ?_ he
            simp_all
          . cases hstride
  . intro hstrides
    cases hstrides with
    | stays child dot =>
      rw [stride, child]
      simp only [bind, Except.bind, if_pos dot]
      rfl
    | back child dots =>
      subst dots
      rw [stride, child]
      rfl
    | goes child named there =>
      rw [stride, child]
      simp only [List.mem_cons, List.not_mem_nil, or_false, not_or] at named
      simp [bind, Except.bind, pure, Except.pure, named, there]

theorem Strides.extends (hstrides : t.Strides place name target) (h : t.Extends t') : t'.Strides place name target := by
  cases hstrides with
  | stays child dot => exact .stays (h.child child) dot
  | back child dots => exact .back (h.child child) dots
  | goes child named there => exact .goes (h.child child) named (h.entry? _ _ there)

theorem walk_cons_eq_ok {part : String}
    : t.walk place (part :: parts) = .ok target ↔ ∃ next, t.Strides place part next ∧ t.walk next parts = .ok target := by
  simp only [walk_cons, bind_eq_ok_iff, stride_eq_ok]

theorem walk_append_eq_ok {front back : List String}
    : t.walk place (front ++ back) = .ok target ↔
      ∃ next, t.walk place front = .ok next ∧ t.walk next back = .ok target := by
  rw [walk_append, bind_eq_ok_iff]

theorem Extends.walk (h : t.Extends t') (hwalk : t.walk place parts = .ok target) : t'.walk place parts = .ok target := by
  induction parts generalizing place with
  | nil => exact hwalk
  | cons part parts ih =>
    rcases walk_cons_eq_ok.mp hwalk with ⟨next, hstrides, hrest⟩
    exact walk_cons_eq_ok.mpr ⟨next, hstrides.extends h, ih hrest⟩

theorem walk_blanks {blanks : List String} (hblanks : ∀ b ∈ blanks, b = "") (h : t.entry? place = some .directory)
    : t.walk place blanks = .ok place := by
  induction blanks with
  | nil => rfl
  | cons b blanks ih =>
    rw [hblanks b List.mem_cons_self]
    have hchild : t.child place "" = .ok (place ++ [""]) := child_eq_ok.mpr ⟨h, by decide, rfl⟩
    exact walk_cons_eq_ok.mpr ⟨place, .stays hchild (.inl rfl), ih fun b hb => hblanks b (List.mem_cons_of_mem _ hb)⟩

end Walk

section Resolve

theorem Extends.start (h : t.Extends t') (path : String) : t'.start path = t.start path := by
  simp only [FileTree.start, h.origin]

theorem resolve_eq_ok
    : t.resolve path = .ok target ↔ ∃ place parts, t.start path = .ok (place, parts) ∧ t.walk place parts = .ok target := by
  simp only [resolve, bind_eq_ok_iff, Prod.exists]

theorem Extends.resolve (h : t.Extends t') (hresolve : t.resolve path = .ok target) : t'.resolve path = .ok target := by
  rcases resolve_eq_ok.mp hresolve with ⟨place, parts, hstart, hwalk⟩
  exact resolve_eq_ok.mpr ⟨place, parts, by rw [h.start, hstart], h.walk hwalk⟩

theorem isDirectory_iff
    : t.isDirectory path = true ↔ ∃ place, t.resolve path = .ok place ∧ t.entry? place = some .directory := by
  unfold isDirectory find?
  cases t.resolve path with
  | error f => simp
  | ok place => simp

theorem read?_eq_some {text : String}
    : t.read? path = some text ↔ ∃ place, t.resolve path = .ok place ∧ t.entry? place = some (.file text) := by
  unfold read? find?
  cases t.resolve path with
  | error f => simp
  | ok place =>
    cases hentry : t.entry? place with
    | none => simp [hentry]
    | some e => cases e <;> simp [hentry]

theorem start_eq_ok (h : t.start path = .ok (place, parts)) : path ≠ "" ∧ parts = Path.parts path := by
  unfold start at h
  split at h
  . cases h
  . split at h
    . cases h
    . next hnonempty =>
      cases h
      exact ⟨by simpa using hnonempty, rfl⟩

end Resolve

section Make

theorem parts_cases (parts : List String)
    : (parts.reverse.dropWhile String.isEmpty).reverse = [] ∨
      ∃ front name blanks, parts = front ++ name :: blanks ∧ name ≠ "" ∧ (∀ b ∈ blanks, b = "") ∧
        (parts.reverse.dropWhile String.isEmpty).reverse = front ++ [name] := by
  have hparts : parts.rdropWhile String.isEmpty ++ parts.rtakeWhile String.isEmpty = parts :=
    List.rdropWhile_append_rtakeWhile
  have hblanks : ∀ b ∈ parts.rtakeWhile String.isEmpty, b = "" :=
    fun b hb => String.isEmpty_iff.mp (List.mem_rtakeWhile_imp hb)
  rcases List.eq_nil_or_concat (parts.rdropWhile String.isEmpty) with hnone | ⟨front, name, hfront⟩
  . exact .inl hnone
  . rw [List.concat_eq_append] at hfront
    refine .inr ⟨front, name, _, ?_, ?_, hblanks, hfront⟩
    . rw [hfront, List.append_assoc] at hparts
      exact hparts.symm
    . have hlast := List.rdropWhile_last_not String.isEmpty parts (by rw [hfront]; simp)
      rintro rfl
      apply hlast
      simp [hfront]

theorem makeDirectory_eq_ok (h : t.makeDirectory path = .ok t') : t.Extends t' ∧ t'.isDirectory path = true := by
  unfold makeDirectory at h
  rcases bind_eq_ok_iff.mp h with ⟨⟨place, parts⟩, hstart, h⟩
  dsimp only at h
  rcases parts_cases parts with hnone | ⟨front, name, blanks, hparts, hname, hblanks, htrimmed⟩
  . rw [hnone] at h
    cases h
  . simp only [htrimmed, List.getLast?_concat, List.dropLast_concat] at h
    rcases bind_eq_ok_iff.mp h with ⟨parent, hparent, h⟩
    rcases bind_eq_ok_iff.mp h with ⟨target, htarget, h⟩
    split at h
    . cases h
    . next hfree =>
      simp only [not_or, Option.isSome_iff_ne_none, ne_eq, not_not] at hfree
      cases h
      have hextends := extends_put hfree.2.2 .directory
      have hentry : entry? (t.put target .directory) target = some .directory :=
        t.entry?_put_self (ne_nil_of_free hfree.2.2) .directory
      refine ⟨hextends, isDirectory_iff.mpr ⟨target, resolve_eq_ok.mpr ⟨place, parts, ?_, ?_⟩, hentry⟩⟩
      . rw [hextends.start, hstart]
      . rw [hparts, walk_append_eq_ok]
        refine ⟨parent, hextends.walk hparent, walk_cons_eq_ok.mpr ⟨target, ?_, walk_blanks hblanks hentry⟩⟩
        exact .goes (hextends.child htarget) (by simp [hname, hfree.1, hfree.2.1]) hentry

theorem makeDirectory_of_resolve (h : t.resolve path = .ok target) : t.makeDirectory path = .error .alreadyExists := by
  rcases resolve_eq_ok.mp h with ⟨place, parts, hstart, hwalk⟩
  unfold makeDirectory
  rw [hstart]
  simp only [bind, Except.bind]
  rcases parts_cases parts with hnone | ⟨front, name, blanks, rfl, hname, -, htrimmed⟩
  . rw [hnone]
    rfl
  . rcases walk_append_eq_ok.mp hwalk with ⟨parent, hparent, hrest⟩
    rcases walk_cons_eq_ok.mp hrest with ⟨next, hstrides, -⟩
    have hthere : ∃ child, t.child parent name = .ok child ∧
        (name = "." ∨ name = ".." ∨ (t.entry? child).isSome = true) := by
      cases hstrides with
      | stays child dot => exact ⟨_, child, .inl (dot.resolve_left hname)⟩
      | back child dots => exact ⟨_, child, .inr (.inl dots)⟩
      | goes child named there => exact ⟨_, child, .inr (.inr (by rw [there]; rfl))⟩
    rcases hthere with ⟨child, hchild, hthere⟩
    simp only [htrimmed, List.getLast?_concat, List.dropLast_concat, hparent, hchild, if_pos hthere]
    rfl

theorem makeAllWithin_spec (t : FileTree) (path : String) (fuel : Nat)
    : t.Extends (t.makeAllWithin path fuel).1 ∧
      ((t.makeAllWithin path fuel).2 = .ok () → path ≠ "" → (t.makeAllWithin path fuel).1.isDirectory path = true) := by
  induction fuel generalizing t path with
  | zero => exact ⟨.refl t, fun hok => by cases hok⟩
  | succ fuel ih =>
    unfold makeAllWithin
    split
    . next hempty =>
      exact ⟨.refl t, fun _ hpath => absurd (String.isEmpty_iff.mp hempty) hpath⟩
    . split
      . next made hmade =>
        rcases makeDirectory_eq_ok hmade with ⟨hextends, hdirectory⟩
        exact ⟨hextends, fun _ _ => hdirectory⟩
      . split
        . exact ⟨.refl t, fun hok => by cases hok⟩
        . next parent hparent =>
          have hrest := (ih t parent).1
          split
          . next grown f hgrown =>
            rw [hgrown] at hrest
            exact ⟨hrest, fun hok => by cases hok⟩
          . next grown hgrown =>
            rw [hgrown] at hrest
            split
            . next made hmade =>
              rcases makeDirectory_eq_ok hmade with ⟨hextends, hdirectory⟩
              exact ⟨hrest.trans hextends, fun _ _ => hdirectory⟩
            . split
              . next hdirectory => exact ⟨hrest, fun _ _ => hdirectory⟩
              . exact ⟨hrest, fun hok => by cases hok⟩
      . split
        . next hdirectory => exact ⟨.refl t, fun _ _ => hdirectory⟩
        . exact ⟨.refl t, fun hok => by cases hok⟩

theorem extends_makeAll (t : FileTree) (path : String) : t.Extends (t.makeAll path).1 :=
  (makeAllWithin_spec t path _).1

theorem isDirectory_makeAll (hok : (t.makeAll path).2 = .ok ()) (hpath : path ≠ "")
    : (t.makeAll path).1.isDirectory path = true :=
  (makeAllWithin_spec t path _).2 hok hpath

theorem makeAll_of_isDirectory (h : t.isDirectory path = true) : t.makeAll path = (t, .ok ()) := by
  rcases isDirectory_iff.mp h with ⟨place, hresolve, -⟩
  have hmake : t.makeDirectory path = .error .alreadyExists := makeDirectory_of_resolve hresolve
  simp only [makeAll, makeAllWithin, hmake, h]
  split <;> rfl

end Make

section Open

theorem openFile_eq_ok (h : t.openFile path = .ok (place, t'))
    : t.Extends t' ∧ t'.resolve path = .ok place ∧ ∃ text, t'.entry? place = some (.file text) := by
  unfold openFile at h
  rcases bind_eq_ok_iff.mp h with ⟨⟨origin, parts⟩, hstart, h⟩
  dsimp only at h
  rcases List.eq_nil_or_concat parts with rfl | ⟨front, name, rfl⟩
  . cases h
  . simp only [List.concat_eq_append, List.getLast?_concat, List.dropLast_concat] at h hstart
    rcases bind_eq_ok_iff.mp h with ⟨parent, hparent, h⟩
    rcases bind_eq_ok_iff.mp h with ⟨target, htarget, h⟩
    -- What the path leads to in a tree that has a file there.
    have hopened : ∀ {t' : FileTree} {e : Entry}, name ∉ ["", ".", ".."] → t.Extends t' → t'.entry? target = some e →
        t'.resolve path = .ok target := by
      intro t' e hname hextends hentry
      refine resolve_eq_ok.mpr ⟨origin, front ++ [name], by rw [hextends.start, hstart], ?_⟩
      refine walk_append_eq_ok.mpr ⟨parent, hextends.walk hparent, walk_cons_eq_ok.mpr ⟨target, ?_, rfl⟩⟩
      exact .goes (hextends.child htarget) hname hentry
    split at h
    . cases h
    . next hname =>
      have hname : name ∉ ["", ".", ".."] := by simpa using hname
      split at h
      . cases h
      . next text hfile =>
        cases h
        exact ⟨.refl _, hopened hname (.refl _) hfile, text, hfile⟩
      . next hfree =>
        cases h
        have hextends := extends_put hfree (.file "")
        have hentry := t.entry?_put_self (ne_nil_of_free hfree) (.file "")
        exact ⟨hextends, hopened hname hextends hentry, "", hentry⟩

end Open

section Names

theorem getLast?_parts_join (base : String) (h : '/' ∉ name.toList)
    : (Path.parts (Path.join base name)).getLast? = some name := by
  have hrelative : Path.isAbsolute name = false := by
    unfold Path.isAbsolute
    cases hname : name.toList with
    | nil => rfl
    | cons c cs =>
      rw [hname] at h
      have : c ≠ '/' := fun hc => h (hc ▸ List.mem_cons_self)
      simpa using this
  have halone : name.toList.splitOn '/' = [name.toList] := List.splitOn_eq_singleton h
  have hafter : ∀ cs, ((cs ++ '/' :: name.toList).splitOn '/').getLast? = some name.toList := by
    intro cs
    rw [List.splitOn_append_cons_self, halone, List.getLast?_concat]
  have hparts : ∀ path : String, (path.toList.splitOn '/').getLast? = some name.toList →
      (Path.parts path).getLast? = some name := by
    intro path hpath
    rw [Path.parts, List.getLast?_map, hpath, Option.map_some, String.ofList_toList]
  apply hparts
  unfold Path.join
  rw [if_neg (by simp [hrelative])]
  split
  . next hbase =>
    rcases List.eq_nil_or_concat base.toList with hnil | ⟨cs, c, hconcat⟩
    . rw [String.toList_append, hnil, List.nil_append, halone]
      rfl
    . have hslash : c = '/' := by
        rw [List.concat_eq_append] at hconcat
        have hnonempty : base ≠ "" := by
          rintro rfl
          simp at hconcat
        simpa [hnonempty, hconcat] using hbase
      rw [String.toList_append, hconcat, hslash, List.concat_eq_append, List.append_assoc]
      exact hafter cs
  . rw [String.toList_append, String.toList_append, List.append_assoc]
    exact hafter _

theorem getLast?_of_resolve (h : t.resolve path = .ok place) (hlast : (Path.parts path).getLast? = some name)
    (hname : name ∉ ["", ".", ".."])
    : place.getLast? = some name := by
  rcases resolve_eq_ok.mp h with ⟨origin, parts, hstart, hwalk⟩
  rw [← (start_eq_ok hstart).2] at hlast
  rcases List.getLast?_eq_some_iff.mp hlast with ⟨front, rfl⟩
  rcases walk_append_eq_ok.mp hwalk with ⟨parent, -, hrest⟩
  rcases walk_cons_eq_ok.mp hrest with ⟨next, hstrides, hend⟩
  cases hend
  simp only [List.mem_cons, List.not_mem_nil, or_false, not_or] at hname
  cases hstrides with
  | stays child dot => exact absurd dot (by simp [hname])
  | back child dots => exact absurd dots hname.2.2
  | goes child named there =>
    rw [← (child_eq_ok.mp child).2.2, List.getLast?_concat]

end Names

end FileTree

end BoxRegistry
