import EntityForge.Proofs.Java.DeclaratorGaps
import EntityForge.Proofs.Java.TypeSyntax

/-!
# Gaps in the type of a declaration

What is read of the text before a declared name are its words between blanks without the modifiers
they start with (`splitBlank_stripModifiers`), and a gap that parts a word in two does not matter if
one of the parts glues to the other (`glue_parted`). So a gap between two parts of a statement does
not matter if it is `Loose`, in any statement (`Loose.fieldsOfStripped`).
-/

namespace EntityForge.Java

open Text (isEnclosed isEnclosed_iff enclose)

/-! ## Words between blanks -/

theorem splitBlank_append_gap {y t w : List Char} (hw : ∀ c ∈ w, Unicode.isBlank c = true)
    (h : w ≠ [] ∨ ∀ c ∈ y.getLast?, ∀ d ∈ t.head?,
      Unicode.isBlank c = true ∨ Unicode.isBlank d = true) :
    Unicode.splitBlank (y ++ (w ++ t)) = Unicode.splitBlank y ++ Unicode.splitBlank t :=
  Text.piecesBy_append_gap hw h

/-- Blanks between two texts part their words, be there any or not; or a word runs across where there
are none. -/
theorem splitBlank_gap (y t : List Char) :
    (∀ w, (∀ c ∈ w, Unicode.isBlank c = true) →
      Unicode.splitBlank (y ++ (w ++ t)) = Unicode.splitBlank y ++ Unicode.splitBlank t) ∨
    ∃ front x z back, ∃ c ∈ y.getLast?, ∃ d ∈ t.head?, c ∈ x.getLast? ∧ d ∈ z.head? ∧
      Unicode.isBlank c = false ∧ Unicode.isBlank d = false ∧
        Unicode.splitBlank y = front ++ [x] ∧
        Unicode.splitBlank (y ++ t) = front ++ (x ++ z) :: back ∧
        ∀ w, (∀ c ∈ w, Unicode.isBlank c = true) → w ≠ [] →
          Unicode.splitBlank (y ++ (w ++ t)) = front ++ x :: z :: back := by
  by_cases hbeside : ∀ c ∈ y.getLast?, ∀ d ∈ t.head?,
      Unicode.isBlank c = true ∨ Unicode.isBlank d = true
  · exact .inl fun w hw => splitBlank_append_gap hw (.inr hbeside)
  · simp only [not_forall, not_or, Bool.not_eq_true] at hbeside
    obtain ⟨c, hc, d, hd, hcb, hdb⟩ := hbeside
    obtain ⟨front, x, z, back, hx, hz, hy, ht, hjoined⟩ :=
      Text.piecesBy_append_across hc hd hcb hdb
    refine .inr ⟨front, x, z, back, c, hc, d, hd, hx, hz, hcb, hdb, hy, hjoined, fun w hw hne => ?_⟩
    rw [splitBlank_append_gap hw (.inl hne), Unicode.splitBlank, Unicode.splitBlank, hy, ht]
    simp

theorem splitBlank_blanks_left {w : List Char} (hw : ∀ c ∈ w, Unicode.isBlank c = true)
    (cs : List Char) : Unicode.splitBlank (w ++ cs) = Unicode.splitBlank cs :=
  Text.piecesBy_seps hw cs

theorem splitBlank_blanks_right {w : List Char} (hw : ∀ c ∈ w, Unicode.isBlank c = true)
    (cs : List Char) : Unicode.splitBlank (cs ++ w) = Unicode.splitBlank cs := by
  simpa [Unicode.splitBlank, Text.piecesBy, Text.splitBy] using
    splitBlank_append_gap (y := cs) (t := []) hw (.inr (by simp))

theorem splitBlank_trimStart (cs : List Char) :
    Unicode.splitBlank (Unicode.trimStart cs) = Unicode.splitBlank cs := by
  have hcs : cs.takeWhile Unicode.isBlank ++ Unicode.trimStart cs = cs :=
    List.takeWhile_append_dropWhile
  have hlead : ∀ c ∈ cs.takeWhile Unicode.isBlank, Unicode.isBlank c = true :=
    fun _ => List.mem_takeWhile_imp
  conv_rhs => rw [← hcs]
  rw [splitBlank_blanks_left hlead]

theorem splitBlank_trim (cs : List Char) :
    Unicode.splitBlank (Unicode.trim cs) = Unicode.splitBlank cs := by
  have hend : ∀ ds, Unicode.splitBlank (Unicode.trimEnd ds) = Unicode.splitBlank ds := by
    intro ds
    have hds : Unicode.trimEnd ds ++ (ds.reverse.takeWhile Unicode.isBlank).reverse = ds := by
      rw [Unicode.trimEnd, ← List.reverse_append, List.takeWhile_append_dropWhile,
        List.reverse_reverse]
    have hlast : ∀ c ∈ (ds.reverse.takeWhile Unicode.isBlank).reverse, Unicode.isBlank c = true :=
      fun c hc => List.mem_takeWhile_imp (List.mem_reverse.1 hc)
    conv_rhs => rw [← hds]
    rw [splitBlank_blanks_right hlast]
  rw [Unicode.trim, hend, splitBlank_trimStart]

/-- The words between blanks are the text without its blanks. -/
theorem mem_flatten_splitBlank {cs : List Char} {c : Char} :
    c ∈ (Unicode.splitBlank cs).flatten ↔ c ∈ cs ∧ Unicode.isBlank c = false := by
  rw [Unicode.splitBlank, Text.flatten_piecesBy, List.mem_filter, Bool.not_eq_true']

/-- A text has words if one of its characters is one of identifiers. -/
theorem words_eq_nil_iff {cs : List Char} : words cs = [] ↔
    ∀ c ∈ (Unicode.splitBlank cs).flatten, isIdentChar c = false := by
  rw [words, Text.piecesBy_eq_nil_iff]
  refine ⟨fun h c hc => ?_, fun h c hc => ?_⟩
  · simpa using h c (mem_flatten_splitBlank.1 hc).1
  · by_cases hb : Unicode.isBlank c = true
    · rw [isIdentChar_of_isBlank hb]
      rfl
    · rw [h c (mem_flatten_splitBlank.2 ⟨hc, by simpa using hb⟩)]
      rfl

/-! ## Modifiers -/

theorem exists_of_dropModifier? {cs rest : List Char} (h : dropModifier? cs = some rest) :
    ∃ m c tail, m ∈ modifiers ∧ Unicode.isBlank c = true ∧ rest = c :: tail ∧ cs = m ++ rest := by
  obtain ⟨m, hm, h⟩ := List.exists_of_findSome?_eq_some h
  split at h
  · rename_i hcond
    rw [Bool.and_eq_true, List.isPrefixOf_iff_prefix] at hcond
    obtain ⟨⟨tail, rfl⟩, hblank⟩ := hcond
    rw [List.drop_left] at hblank h
    obtain rfl := Option.some.inj h
    cases tail with
    | nil => cases hblank
    | cons c tail => exact ⟨m, c, tail, hm, by simpa using hblank, rfl, rfl⟩
  · cases h

/-- A modifier ends in a character of identifiers. -/
theorem getLast?_of_mem_modifiers {m : List Char} (hm : m ∈ modifiers) :
    ∃ c ∈ m.getLast?, isIdentChar c = true := by
  have hall : modifiers.all (fun m => m.getLast?.any isIdentChar) = true := by decide +kernel
  have hany := List.all_eq_true.1 hall m hm
  cases hlast : m.getLast? with
  | none =>
    rw [hlast] at hany
    cases hany
  | some c =>
    rw [hlast] at hany
    exact ⟨c, rfl, by simpa using hany⟩

/-- A text that does not end in an identifier starts with a modifier if its first word between
blanks is one. -/
theorem head?_splitBlank_not_mem {cs : List Char} (hcs : ∀ c ∈ cs.getLast?, isIdentChar c = false)
    (h : dropModifier? (Unicode.trimStart cs) = none) :
    ∀ m ∈ (Unicode.splitBlank cs).head?, m ∉ modifiers := by
  intro m hhead hm
  rw [← splitBlank_trimStart] at hhead
  have hlast : ∀ c ∈ (Unicode.trimStart cs).getLast?, isIdentChar c = false :=
    fun c hc => hcs c (mem_getLast?_of_trimStart hc)
  have hstart : ∀ c ∈ (Unicode.trimStart cs).head?, Unicode.isBlank c = false :=
    Text.head?_dropWhile
  generalize Unicode.trimStart cs = ds at h hhead hlast hstart
  obtain ⟨span, rest, rfl, hspan, hrest⟩ := Text.exists_firstSpan Unicode.isBlank ds
  have hne : span ≠ [] := by
    rintro rfl
    cases rest with
    | nil => cases hhead
    | cons c rest =>
      have hc := hrest c rfl
      rw [hstart c rfl] at hc
      cases hc
  have hsplit : Unicode.splitBlank (span ++ rest) = span :: Unicode.splitBlank rest := by
    rw [Unicode.splitBlank, Text.piecesBy_append_apart fun c hc d hd => .inr (hrest d hd),
      Text.piecesBy_self hspan hne]
    rfl
  rw [hsplit] at hhead
  obtain rfl : span = m := Option.some.inj hhead
  cases rest with
  | nil =>
    obtain ⟨c, hc, hident⟩ := getLast?_of_mem_modifiers hm
    rw [List.append_nil] at hlast
    rw [hlast c hc] at hident
    cases hident
  | cons c rest =>
    rw [dropModifier?_modifier hm (hrest c rfl)] at h
    cases h

/-- Without modifiers a text is left of its words between blanks from the first one on that is no
modifier. -/
theorem splitBlank_stripModifiers {cs : List Char}
    (hcs : ∀ c ∈ cs.getLast?, isIdentChar c = false) :
    Unicode.splitBlank (stripModifiers cs) =
      (Unicode.splitBlank cs).dropWhile (modifiers.contains ·) := by
  induction cs using stripModifiers.induct with
  | case1 cs rest hdrop ih =>
    obtain ⟨m, c, tail, hm, hc, rfl, htrim⟩ := exists_of_dropModifier? hdrop
    have hlast : ∀ d ∈ (c :: tail).getLast?, isIdentChar d = false := by
      intro d hd
      refine hcs d (mem_getLast?_of_trimStart ?_)
      rwa [htrim, List.getLast?_append_of_ne_nil _ (List.cons_ne_nil _ _)]
    have hword : ∀ d ∈ m, Unicode.isBlank d = false :=
      fun d hd => isBlank_of_mem_modifierChars (mem_modifierChars hm hd)
    have hsplit : Unicode.splitBlank cs = m :: Unicode.splitBlank (c :: tail) := by
      rw [← splitBlank_trimStart, htrim, Unicode.splitBlank, Unicode.splitBlank,
        Text.piecesBy_append hword (modifiers_chars hm).1 hc, Text.piecesBy_cons hc]
    rw [stripModifiers_eq, hdrop, hsplit, List.dropWhile_cons_of_pos (by simpa using hm)]
    exact ih hlast
  | case2 cs hdrop =>
    rw [stripModifiers_eq, hdrop]
    refine (splitBlank_trim cs).trans ?_
    have hfirst := head?_splitBlank_not_mem hcs hdrop
    cases hsplit : Unicode.splitBlank cs with
    | nil => rfl
    | cons m rest =>
      rw [hsplit] at hfirst
      rw [List.dropWhile_cons_of_neg (by simpa using hfirst m rfl)]

/-! ## Words that are glued -/

theorem glue_space {c d : Char} (hc : c ≠ ' ') (hd : d ≠ ' ')
    (h : gluesRight c = true ∨ gluesLeft d = true) (prev : Option Char) (xs ys : List Char) :
    glue prev (xs ++ c :: ' ' :: d :: ys) = glue prev (xs ++ c :: d :: ys) := by
  induction xs generalizing prev with
  | nil =>
    have hself : ∀ prev, glue prev (d :: ys) = glue none (d :: ys) :=
      glue_prev (by simpa using hd)
    have hspace : glue (some c) (' ' :: d :: ys) = glue (some c) (d :: ys) := by
      rw [glue, if_pos rfl, if_pos (by simpa using h), hself, hself (some c)]
    have hstep : ∀ rest, glue prev (c :: rest) =
        if c = ',' then ',' :: ' ' :: glue (some c) rest else c :: glue (some c) rest :=
      fun rest => by rw [glue, if_neg hc]
    rw [List.nil_append, List.nil_append, hstep, hstep, hspace]
  | cons e xs ih =>
    have hhead : (xs ++ c :: ' ' :: d :: ys).head? = (xs ++ c :: d :: ys).head? := by
      cases xs <;> rfl
    rw [List.cons_append, List.cons_append, glue, glue, hhead, ih]

theorem intercalate_append_cons (front : List (List Char)) (x : List Char)
    (back : List (List Char)) : [' '].intercalate (front ++ x :: back) =
      front.flatMap (· ++ [' ']) ++ (x ++ back.flatMap (' ' :: ·)) := by
  have hfirst : ∀ (x : List Char) (back : List (List Char)),
      [' '].intercalate (x :: back) = x ++ back.flatMap (' ' :: ·) := by
    intro x back
    induction back generalizing x with
    | nil => simp
    | cons z back ih =>
      rw [List.intercalate_cons_cons, ih]
      simp
  induction front with
  | nil => exact hfirst x back
  | cons z front ih =>
    have hcons : z :: front ++ x :: back = z :: (front ++ x :: back) := rfl
    rw [hcons]
    cases hrest : front ++ x :: back with
    | nil => simp at hrest
    | cons z' rest =>
      rw [List.intercalate_cons_cons, ← hrest, ih]
      simp

/-- A word that is parted in two makes up the same type if one part glues to the other. -/
theorem glue_parted {x z : List Char} {c d : Char} (hc : c ∈ x.getLast?) (hd : d ∈ z.head?)
    (hcb : Unicode.isBlank c = false) (hdb : Unicode.isBlank d = false)
    (h : gluesRight c = true ∨ gluesLeft d = true) (front back : List (List Char)) :
    glue none ([' '].intercalate (front ++ x :: z :: back)) =
      glue none ([' '].intercalate (front ++ (x ++ z) :: back)) := by
  have hspace : ∀ {e}, Unicode.isBlank e = false → e ≠ ' ' :=
    fun he => Unicode.ne_of_class (p := fun c => !Unicode.isBlank c) (by simp [he]) (by decide)
  obtain ⟨xs, rfl⟩ : ∃ xs, x = xs ++ [c] := ⟨_, (List.dropLast_append_getLast? c hc).symm⟩
  obtain ⟨zs, rfl⟩ : ∃ zs, z = d :: zs := ⟨_, List.eq_cons_of_mem_head? hd⟩
  rw [intercalate_append_cons, intercalate_append_cons]
  simpa using glue_space (hspace hcb) (hspace hdb) h none
    (front.flatMap (· ++ [' ']) ++ xs) (zs ++ back.flatMap (' ' :: ·))

/-- The character that ends the one text or the one that starts the other glues. -/
theorem glues_of_ends {y t : List Char} {c d : Char} (hc : c ∈ y.getLast?) (hd : d ∈ t.head?)
    (h : (∃ c ∈ y.getLast?, gluesRight c = true) ∨ ∃ d ∈ t.head?, gluesLeft d = true) :
    gluesRight c = true ∨ gluesLeft d = true := by
  rcases h with ⟨c', hc', hright⟩ | ⟨d', hd', hleft⟩
  · obtain rfl := Option.mem_unique hc hc'
    exact .inl hright
  · obtain rfl := Option.mem_unique hd hd'
    exact .inr hleft

/-- The words between blanks are the same but for one that is parted in two, where one part glues to
the other. A word that is no modifier is among those up to there. -/
structure GluedWords (ws vs : List (List Char)) : Prop where
  parted : ∃ front x z back, ∃ c ∈ x.getLast?, ∃ d ∈ z.head?,
    Unicode.isBlank c = false ∧ Unicode.isBlank d = false ∧
      (gluesRight c = true ∨ gluesLeft d = true) ∧ (∃ m ∈ front ++ [x], m ∉ modifiers) ∧
        ws = front ++ x :: z :: back ∧ vs = front ++ (x ++ z) :: back

/-- The words between blanks are spelled alike. -/
def SameWords (ws vs : List (List Char)) : Prop :=
  ws = vs ∨ GluedWords ws vs ∨ GluedWords vs ws

/-- A text that glues is no modifier. -/
theorem append_not_mem_modifiers {x z : List Char} {c d : Char} (hc : c ∈ x.getLast?)
    (hd : d ∈ z.head?) (h : gluesRight c = true ∨ gluesLeft d = true) : x ++ z ∉ modifiers := by
  intro hm
  have hx : c ∈ modifierChars :=
    mem_modifierChars hm (List.mem_append_left _ (List.mem_of_getLast? hc))
  have hz : d ∈ modifierChars :=
    mem_modifierChars hm (List.mem_append_right _ (List.mem_of_mem_head? hd))
  have hnone : modifierChars.all (fun c => !gluesRight c && !gluesLeft c) = true := by decide
  have hright := List.all_eq_true.1 hnone c hx
  have hleft := List.all_eq_true.1 hnone d hz
  rcases h with h | h
  · simp [h] at hright
  · simp [h] at hleft

/-- The texts before a name declare the same type. -/
structure SameType (a b : List Char) : Prop where
  words : words (stripModifiers a) = [] ↔ words (stripModifiers b) = []
  type : normalizeType (stripModifiers a) = normalizeType (stripModifiers b)

namespace SameType

variable {a b : List Char}

theorem symm (h : SameType a b) : SameType b a :=
  ⟨h.words.symm, h.type.symm⟩

theorem of_glued (ha : ∀ c ∈ a.getLast?, isIdentChar c = false)
    (hb : ∀ c ∈ b.getLast?, isIdentChar c = false)
    (h : GluedWords (Unicode.splitBlank a) (Unicode.splitBlank b)) : SameType a b := by
  obtain ⟨front, x, z, back, c, hc, d, hd, hcb, hdb, hglue, hword, hws, hvs⟩ := h.parted
  -- the modifiers at the start are the same
  obtain ⟨rest, hdrop⟩ : ∃ rest : List (List Char), ∀ u us,
      u ∉ modifiers ∨ (∃ m ∈ front, m ∉ modifiers) →
        (front ++ u :: us).dropWhile (modifiers.contains ·) = rest ++ u :: us := by
    refine ⟨front.dropWhile (modifiers.contains ·), fun u us hu => ?_⟩
    rw [List.dropWhile_append]
    split
    · rename_i hempty
      rw [List.isEmpty_iff, List.dropWhile_eq_nil_iff] at hempty
      have hnone : ¬∃ m ∈ front, m ∉ modifiers := by
        rintro ⟨m, hm, hnot⟩
        exact hnot (by simpa using hempty m hm)
      have hself : (u :: us).dropWhile (modifiers.contains ·) = u :: us :=
        List.dropWhile_cons_of_neg (by simpa using hu.resolve_right hnone)
      rw [hself, List.dropWhile_eq_nil_iff.2 hempty, List.nil_append]
    · rfl
  have hfirst : x ∉ modifiers ∨ ∃ m ∈ front, m ∉ modifiers := by
    obtain ⟨m, hm, hnot⟩ := hword
    rcases List.mem_append.1 hm with hm | hm
    · exact .inr ⟨m, hm, hnot⟩
    · exact .inl (List.mem_singleton.1 hm ▸ hnot)
  have hsplit : Unicode.splitBlank (stripModifiers a) = rest ++ x :: z :: back := by
    rw [splitBlank_stripModifiers ha, hws, hdrop _ _ hfirst]
  have hsplit' : Unicode.splitBlank (stripModifiers b) = rest ++ (x ++ z) :: back := by
    rw [splitBlank_stripModifiers hb, hvs,
      hdrop _ _ (.inl (append_not_mem_modifiers hc hd hglue))]
  refine ⟨?_, ?_⟩
  · have hflat : (rest ++ x :: z :: back).flatten = (rest ++ (x ++ z) :: back).flatten := by simp
    rw [words_eq_nil_iff, words_eq_nil_iff, hsplit, hsplit', hflat]
  · rw [normalizeType, normalizeType, hsplit, hsplit', glue_parted hc hd hcb hdb hglue]

/-- Texts whose words are spelled alike declare the same type. -/
theorem of_words (ha : ∀ c ∈ a.getLast?, isIdentChar c = false)
    (hb : ∀ c ∈ b.getLast?, isIdentChar c = false)
    (h : SameWords (Unicode.splitBlank a) (Unicode.splitBlank b)) : SameType a b := by
  rcases h with h | h | h
  · have hsplit : Unicode.splitBlank (stripModifiers a) = Unicode.splitBlank (stripModifiers b) := by
      rw [splitBlank_stripModifiers ha, splitBlank_stripModifiers hb, h]
    exact ⟨by rw [words_eq_nil_iff, words_eq_nil_iff, hsplit],
      by rw [normalizeType, normalizeType, hsplit]⟩
  · exact of_glued ha hb h
  · exact (of_glued hb ha h).symm

end SameType

/-! ## Gaps that do not matter -/

/-- The text is a name with array brackets, if need be, and what may follow those. -/
def StartsWithName (t : List Char) : Prop :=
  ∃ name dims rest k, isIdentifier name = true ∧ IsDims k dims ∧ t = name ++ (dims ++ rest) ∧
    ∀ c ∈ rest.head?, c = '=' ∨ c = ','

/-- In the statement that `y` and `t` make up the blanks `v` in the place of `w` do not change the
fields that are declared. -/
inductive Loose (y t w v : List Char) : Prop
  /-- There are blanks in both or in neither. -/
  | kept (h : w = [] ↔ v = [])
  /-- There are other blanks beside them. -/
  | beside (h : ∀ c ∈ y.getLast?, ∀ d ∈ t.head?,
      Unicode.isBlank c = true ∨ Unicode.isBlank d = true)
  /-- The type is glued here, after a word that is no modifier. -/
  | glued (h : (∃ c ∈ y.getLast?, gluesRight c = true) ∨ ∃ d ∈ t.head?, gluesLeft d = true)
      (hword : ∃ m ∈ Unicode.splitBlank y, m ∉ modifiers)
  /-- The first name starts here. -/
  | name (hy : isEnclosed (declaratorBrackets false) ',' y = true) (ht : StartsWithName t)
  /-- The type and the first name are read. -/
  | value (h : '=' ∈ y ++ t.head?.toList)
  /-- The statement is the header of a method and declares no fields. -/
  | parameters (h : '(' ∈ before '=' (y ++ t))

theorem mem_head?_of_isPrefix {e t : List Char} (h : e <+: t) {d : Char} (hd : d ∈ e.head?) :
    d ∈ t.head? := by
  obtain ⟨rest, rfl⟩ := h
  rw [List.head?_append, hd]
  rfl

/-- Where a type is glued after a word that is no modifier, its words are spelled alike. -/
theorem sameWords_of_glued {y e w v : List Char} (hw : ∀ c ∈ w, Unicode.isBlank c = true)
    (hv : ∀ c ∈ v, Unicode.isBlank c = true)
    (h : (∃ c ∈ y.getLast?, gluesRight c = true) ∨ ∃ d ∈ e.head?, gluesLeft d = true)
    (hword : ∃ m ∈ Unicode.splitBlank y, m ∉ modifiers) :
    SameWords (Unicode.splitBlank (y ++ (w ++ e))) (Unicode.splitBlank (y ++ (v ++ e))) := by
  rcases splitBlank_gap y e with hsplit | ⟨front, x, z, back, c, hc, d, hd, hx, hz, hcb, hdb, hy,
    hnone, hsome⟩
  · exact .inl (by rw [hsplit w hw, hsplit v hv])
  · have hglue := glues_of_ends hc hd h
    have hglued : GluedWords (front ++ x :: z :: back) (front ++ (x ++ z) :: back) :=
      ⟨front, x, z, back, c, hx, d, hz, hcb, hdb, hglue, hy ▸ hword, rfl, rfl⟩
    by_cases hwnil : w = []
    · by_cases hvnil : v = []
      · exact .inl (by rw [hwnil, hvnil])
      · rw [hwnil, List.nil_append, hnone, hsome v hv hvnil]
        exact .inr (.inr hglued)
    · by_cases hvnil : v = []
      · rw [hvnil, List.nil_append, hnone, hsome w hw hwnil]
        exact .inr (.inl hglued)
      · rw [hsome w hw hwnil, hsome v hv hvnil]
        exact .inl rfl

/-- What precedes a name does not end in an identifier. -/
theorem Declarator.getLast?_head {cs : List Char} {d : Declarator}
    (h : Declarator.ofChars? cs = some d) : ∀ c ∈ d.head.getLast?, isIdentChar c = false := by
  obtain ⟨head, dims, -, -, -, hlast, hhead⟩ := Declarator.ofChars?_eq_some_iff.1 h
  rw [hhead]
  exact fun c hc => hlast c (mem_getLast?_of_trimStart hc)

/-- Of the first declarator the name, the array brackets and the type are read. -/
theorem fieldsOfDeclarators_sameType {part part' head : List Char} {d : Declarator}
    (hd : Declarator.ofChars? (before '=' part) = some d)
    (hd' : Declarator.ofChars? (before '=' part') = some { d with head := head })
    (h : SameType d.head head) (back : List (List Char)) :
    fieldsOfDeclarators (part :: back) = fieldsOfDeclarators (part' :: back) := by
  have hempty : (words (stripModifiers d.head)).isEmpty = (words (stripModifiers head)).isEmpty := by
    rw [Bool.eq_iff_iff, List.isEmpty_iff, List.isEmpty_iff]
    exact h.words
  rw [fieldsOfDeclarators, fieldsOfDeclarators, hd, hd']
  simp only [Option.bind_eq_bind, Option.bind_some, hempty, h.type, Declarator.dimsText]

theorem isEnclosed_append_blanks {y u : List Char}
    (hy : isEnclosed (declaratorBrackets false) ',' y = true)
    (hu : ∀ c ∈ u, Unicode.isBlank c = true) :
    isEnclosed (declaratorBrackets false) ',' (y ++ u) = true := by
  rw [isEnclosed_iff, Text.enclose_append, isEnclosed_iff.1 hy]
  exact enclose_unmarked (fun c hc => isDeclaratorMark_of_isBlank (hu c hc)) false []

section
variable {name dims rest : List Char} {k : Nat} (hname : isIdentifier name = true)
  (hdims : IsDims k dims)
include hname hdims

theorem isEnclosed_append_name {x : List Char}
    (hx : isEnclosed (declaratorBrackets false) ',' x = true) :
    isEnclosed (declaratorBrackets false) ',' (x ++ (name ++ dims)) = true := by
  have hchars : enclose (declaratorBrackets false) ',' [] name = some [] :=
    enclose_unmarked (fun c hc => isDeclaratorMark_of_isIdentChar
      (isIdentChar_of_isIdentifier hname c hc)) false []
  rw [isEnclosed_iff]
  simp [Text.enclose_append, isEnclosed_iff.1 hx, hchars, hdims.enclose false []]

theorem equals_not_mem_append_name {x : List Char} (hx : '=' ∉ x) : '=' ∉ x ++ (name ++ dims) := by
  rw [List.mem_append, not_or]
  exact ⟨hx, not_mem_name_dims hname hdims (by decide +kernel) (by decide) (by decide)⟩

/-- The first declarator ends with the first name, but for an initial value; what comes after it is
the same whatever precedes the name. -/
theorem splitDeclarators_name (hrest : ∀ c ∈ rest.head?, c = '=' ∨ c = ',') :
    ∃ q back, before '=' q = [] ∧ ∀ {x},
      isEnclosed (declaratorBrackets false) ',' x = true → '=' ∉ x →
        splitDeclarators (x ++ (name ++ (dims ++ rest))) =
          ((x ++ (name ++ dims)) ++ q) :: back := by
  obtain ⟨q, back, hq, hfirst⟩ := splitDeclaratorsFrom_first (.ofDue false []) rest
  refine ⟨q, back, ?_, fun {x} hx heq => ?_⟩
  · cases q with
    | nil => rfl
    | cons c q =>
      obtain ⟨after, rfl⟩ := hq
      rcases hrest c rfl with rfl | rfl
      · exact List.takeWhile_cons_of_neg (by simp)
      · have hcut := hfirst []
        rw [List.cons_append, splitDeclaratorsFrom, if_pos ⟨rfl, Nesting.isTop_ofDue.2 rfl⟩] at hcut
        cases (List.cons.inj hcut).1
  · have hpart : splitDeclarators ((x ++ (name ++ dims)) ++ rest) = _ :=
      splitDeclaratorsFrom_enclose (isEnclosed_iff.1 (isEnclosed_append_name hname hdims hx))
        (fun hc => absurd hc (equals_not_mem_append_name hname hdims heq)) [] rest
    rw [hfirst] at hpart
    simpa using hpart

theorem ofChars?_before_name {x q : List Char} (hq : before '=' q = []) (heq : '=' ∉ x)
    (hlast : ∀ c ∈ x.getLast?, isIdentChar c = false) :
    Declarator.ofChars? (before '=' ((x ++ (name ++ dims)) ++ q)) =
      some ⟨Unicode.trimStart x, name, k⟩ := by
  rw [before_append_of_not_mem (equals_not_mem_append_name hname hdims heq), hq, List.append_nil,
    Declarator.ofChars?_dims hname hdims hlast]

end

namespace Respaces

variable {y t w v : List Char}

/-- In the first declarator a gap does not matter if it does not matter to the words of any text
before the initial value. -/
theorem fieldsOfDeclarators_words (h : Respaces y t w v) {q : List Char} (hq : q <+: t)
    (hwords : ∀ e, e <+: before '=' q →
      SameWords (Unicode.splitBlank (y ++ (w ++ e))) (Unicode.splitBlank (y ++ (v ++ e))))
    (back : List (List Char)) :
    fieldsOfDeclarators ((y ++ (w ++ q)) :: back) =
      fieldsOfDeclarators ((y ++ (v ++ q)) :: back) := by
  by_cases hmem : '=' ∈ y
  · exact fieldsOfDeclarators_before (by rw [before_append_of_mem hmem, before_append_of_mem hmem])
      back
  have hw := before_gap (by decide) hmem h.left q
  have hv := before_gap (by decide) hmem h.right q
  have h' := h.mono List.suffix_rfl ((before_isPrefix '=' q).trans hq)
  cases hd : Declarator.ofChars? (y ++ (w ++ before '=' q)) with
  | none =>
    cases hd' : Declarator.ofChars? (y ++ (v ++ before '=' q)) with
    | none => rw [fieldsOfDeclarators, fieldsOfDeclarators, hw, hv, hd, hd']
    | some d =>
      obtain ⟨head', hsome, -⟩ := h'.symm.ofChars? hd'
      rw [hd] at hsome
      cases hsome
  | some d =>
    obtain ⟨head', hsome, hheads⟩ := h'.ofChars? hd
    refine fieldsOfDeclarators_sameType (hw ▸ hd) (hv ▸ hsome) ?_ back
    refine .of_words (Declarator.getLast?_head hd) (Declarator.getLast?_head hsome) ?_
    rcases hheads with hsame | ⟨e, he, hhead, hhead'⟩
    · exact .inl (congrArg _ hsame.symm)
    · rw [hhead, hhead', splitBlank_trimStart, splitBlank_trimStart]
      exact hwords e he

/-- A gap does not matter to a statement if it does not matter to the words of any text before the
initial value. -/
theorem fieldsOfStripped_words (h : Respaces y t w v)
    (hwords : ∀ e, e <+: before '=' t →
      SameWords (Unicode.splitBlank (y ++ (w ++ e))) (Unicode.splitBlank (y ++ (v ++ e)))) :
    fieldsOfStripped (y ++ (w ++ t)) = fieldsOfStripped (y ++ (v ++ t)) :=
  h.fieldsOfStripped_eq fun _ back hq =>
    h.fieldsOfDeclarators_words hq (fun e he => hwords e (he.trans (before_mono '=' hq))) back

/-- Blanks at the end do not matter to the words. -/
theorem splitBlank_end (h : Respaces y t w v) :
    Unicode.splitBlank (y ++ (w ++ [])) = Unicode.splitBlank (y ++ (v ++ [])) := by
  rw [List.append_nil, List.append_nil, splitBlank_blanks_right h.left,
    splitBlank_blanks_right h.right]

/-- The text before a first name does not end in an identifier, if a gap or a mark parts them. -/
theorem getLast?_append_name (h : Respaces y t w v) (ht : StartsWithName t) (hne : w ≠ v) :
    (∀ c ∈ (y ++ w).getLast?, isIdentChar c = false) ∧
      ∀ c ∈ (y ++ v).getLast?, isIdentChar c = false := by
  obtain ⟨name, dims, rest, k, hname, hdims, rfl, -⟩ := ht
  obtain ⟨d, hd, hident⟩ := mem_head?_append hname (dims ++ rest)
  have hlast : ∀ {u : List Char}, (∀ c ∈ u, Unicode.isBlank c = true) →
      (u = [] → ¬(w = [] ↔ v = [])) → ∀ c ∈ (y ++ u).getLast?, isIdentChar c = false := by
    intro u hu hnil c hc
    rcases List.eq_nil_or_concat u with rfl | ⟨u, b, rfl⟩
    · rw [List.append_nil] at hc
      rw [Bool.eq_false_iff]
      intro hcident
      rw [h.apart.resolve_left (hnil rfl) c hc d hd hcident] at hident
      cases hident
    · obtain rfl : b = c := by simpa using hc
      exact isIdentChar_of_isBlank (hu b (by simp))
  exact ⟨hlast h.left fun hw hiff => hne (by rw [hw, hiff.1 hw]),
    hlast h.right fun hv hiff => hne (by rw [hv, hiff.2 hv])⟩

/-- A gap before the first name of a statement. -/
theorem fieldsOfDeclarators_name (h : Respaces y t w v)
    (hy : isEnclosed (declaratorBrackets false) ',' y = true) (heq : '=' ∉ y)
    (ht : StartsWithName t) : fieldsOfDeclarators (splitDeclarators (y ++ (w ++ t))) =
      fieldsOfDeclarators (splitDeclarators (y ++ (v ++ t))) := by
  by_cases hne : w = v
  · rw [hne]
  obtain ⟨hlastw, hlastv⟩ := h.getLast?_append_name ht hne
  obtain ⟨name, dims, rest, k, hname, hdims, rfl, hrest⟩ := ht
  obtain ⟨q, back, hq, hsplit⟩ := splitDeclarators_name hname hdims hrest
  have hleft : '=' ∉ y ++ w := fun hc => (List.mem_append.1 hc).elim heq
    fun hc => absurd (h.left _ hc) (by decide)
  have hright : '=' ∉ y ++ v := fun hc => (List.mem_append.1 hc).elim heq
    fun hc => absurd (h.right _ hc) (by decide)
  have hw := ofChars?_before_name hname hdims hq hleft hlastw
  have hv := ofChars?_before_name hname hdims hq hright hlastv
  rw [← List.append_assoc, ← List.append_assoc y v, hsplit (isEnclosed_append_blanks hy h.left) hleft,
    hsplit (isEnclosed_append_blanks hy h.right) hright]
  refine fieldsOfDeclarators_sameType hw hv ?_ back
  refine .of_words (Declarator.getLast?_head hw) (Declarator.getLast?_head hv) (.inl ?_)
  rw [splitBlank_trimStart, splitBlank_trimStart, splitBlank_blanks_right h.left,
    splitBlank_blanks_right h.right]

end Respaces

/-- The header of a method declares no fields. -/
theorem fieldsOfStripped_parameters {y t u : List Char} (h : '(' ∈ before '=' (y ++ t))
    (hu : ∀ c ∈ u, Unicode.isBlank c = true) : fieldsOfStripped (y ++ (u ++ t)) = [] := by
  have hmem : '(' ∈ before '=' (y ++ (u ++ t)) := by
    by_cases heq : '=' ∈ y
    · rwa [before_append_of_mem heq] at h ⊢
    · rw [before_append_of_not_mem heq] at h
      rw [before_gap (by decide) heq hu]
      simp only [List.mem_append] at h ⊢
      exact h.imp_right .inr
  rw [fieldsOfStripped, if_pos (by simpa using .inl hmem)]

/-- A loose gap does not change the fields that the statement declares. -/
theorem Loose.fieldsOfStripped {y t w v : List Char} (hl : Loose y t w v) (h : Respaces y t w v) :
    fieldsOfStripped (y ++ (w ++ t)) = fieldsOfStripped (y ++ (v ++ t)) := by
  cases hl with
  | kept hiff =>
    refine h.fieldsOfStripped_words fun e _ => .inl ?_
    by_cases hw : w = []
    · rw [hw, hiff.1 hw]
    · rw [splitBlank_append_gap h.left (.inl hw),
        splitBlank_append_gap h.right (.inl fun hv => hw (hiff.2 hv))]
  | beside hbeside =>
    refine h.fieldsOfStripped_words fun e he => .inl ?_
    have hside : ∀ c ∈ y.getLast?, ∀ d ∈ e.head?,
        Unicode.isBlank c = true ∨ Unicode.isBlank d = true :=
      fun c hc d hd => hbeside c hc d (mem_head?_of_isPrefix (he.trans (before_isPrefix '=' t)) hd)
    rw [splitBlank_append_gap h.left (.inr hside), splitBlank_append_gap h.right (.inr hside)]
  | glued hglue hword =>
    refine h.fieldsOfStripped_words fun e he => ?_
    cases e with
    | nil => exact .inl h.splitBlank_end
    | cons d e =>
      have hd : d ∈ t.head? := mem_head?_of_isPrefix (he.trans (before_isPrefix '=' t)) rfl
      rw [hd] at hglue
      exact sameWords_of_glued h.left h.right hglue hword
  | name hy ht =>
    by_cases heq : '=' ∈ y
    · exact h.fieldsOfStripped_value heq
    · exact h.fieldsOfStripped_of_fieldsOfDeclarators (h.fieldsOfDeclarators_name hy heq ht)
  | value hvalue =>
    rcases List.mem_append.1 hvalue with heq | heq
    · exact h.fieldsOfStripped_value heq
    · refine h.fieldsOfStripped_words fun e he => .inl ?_
      obtain ⟨t, rfl⟩ := List.head?_eq_some_iff.1 (Option.mem_toList.1 heq)
      have hnil : before '=' ('=' :: t) = [] := List.takeWhile_cons_of_neg (by simp)
      rw [hnil, List.prefix_nil] at he
      rw [he]
      exact h.splitBlank_end
  | parameters hparen =>
    rw [fieldsOfStripped_parameters hparen h.left, fieldsOfStripped_parameters hparen h.right]

/-- A gap does not change the fields that a statement declares if it stands in an annotation, or is
loose in what is left without annotations. -/
theorem RespacesIn.fieldsOfStatement_eq {x z w v : List Char} (h : RespacesIn x z w v)
    (hloose : stripAnnotations (x ++ (w ++ z)) = stripAnnotations x ++ (w ++ stripAnnotations z) →
      Loose (stripAnnotations x) (stripAnnotations z) w v) :
    fieldsOfStatement (x ++ (w ++ z)) = fieldsOfStatement (x ++ (v ++ z)) := by
  rw [Java.fieldsOfStatement_eq, Java.fieldsOfStatement_eq]
  rcases h.strip with hsame | ⟨hw, hv⟩
  · rw [hsame]
  · rw [hw, hv, (hloose hw).fieldsOfStripped h.stripped]

end EntityForge.Java
