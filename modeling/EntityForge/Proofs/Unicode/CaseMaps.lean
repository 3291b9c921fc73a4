import EntityForge.Unicode.CaseMap
import Mathlib.Data.List.Basic

/-!
# Case maps of single characters

What a lower-case form starts with is its own lower-case form (`exists_toLower`), and what the
upper-case form of such a character starts with comes back when it is lowered and raised again
(`exists_toUpper`). No character but the underscore has an underscore in its lower-case or
upper-case form.

All this is read off the tables, run by run: `CaseRun.sentBy` is the run of the code points that a
run is sent to, and `runOf?` finds the run of a table that sends a whole run (`mapCase_of_runOf?`).
-/

namespace EntityForge.Unicode

namespace CaseRun

theorem covers_iff {r : CaseRun} {n : Nat} :
    r.covers n = true ↔ r.first ≤ n ∧ n ≤ r.last ∧ (n - r.first) % r.step = 0 := by
  simp [covers, and_assoc]

theorem apply_add {r : CaseRun} {n : Nat} (h : r.first ≤ n) (k : Nat) :
    r.apply (n + k) = r.apply n + k := by
  unfold apply
  omega

/-- The run of one code point. -/
def single (n : Nat) : CaseRun :=
  ⟨n, n, 1, n⟩

theorem covers_single (n : Nat) : (single n).covers n = true :=
  covers_iff.2 ⟨Nat.le_refl n, Nat.le_refl n, Nat.mod_one _⟩

/-- All code points of the run are even, or all are odd. -/
def keepsParity (r : CaseRun) : Bool :=
  r.step == 2 || r.first == r.last

theorem mod_two_of_covers {r : CaseRun} (h : r.keepsParity = true) {n : Nat}
    (hn : r.covers n = true) : n % 2 = r.first % 2 := by
  obtain ⟨hfirst, hlast, hstep⟩ := covers_iff.1 hn
  simp only [keepsParity, Bool.or_eq_true, beq_iff_eq] at h
  rcases h with h | h
  · rw [h] at hstep
    omega
  · omega

/-- The runs may have a code point in common: their ranges overlap, and they do not take turns. -/
def meets (r s : CaseRun) : Bool :=
  Nat.ble r.first s.last && (Nat.ble s.first r.last &&
    !(r.keepsParity && s.keepsParity && (r.first + s.first) % 2 == 1))

theorem not_covers_of_not_meets {r s : CaseRun} (h : r.meets s = false) {n : Nat}
    (hn : r.covers n = true) : s.covers n = false := by
  rw [Bool.eq_false_iff] at h ⊢
  refine fun hs => h ?_
  obtain ⟨hr1, hr2, -⟩ := covers_iff.1 hn
  obtain ⟨hs1, hs2, -⟩ := covers_iff.1 hs
  simp only [meets, Bool.and_eq_true, Nat.ble_eq, Bool.not_eq_true', Bool.and_eq_false_iff,
    beq_eq_false_iff_ne]
  refine ⟨by omega, by omega, ?_⟩
  by_cases hr : r.keepsParity = true
  · by_cases ht : s.keepsParity = true
    · have := mod_two_of_covers hr hn
      have := mod_two_of_covers ht hs
      exact .inr (by omega)
    · exact .inl (.inr (by simpa using ht))
  · exact .inl (.inl (by simpa using hr))

/-- Every code point of `r` is one of `s`. -/
def within (r s : CaseRun) : Bool :=
  Nat.ble s.first r.first && Nat.ble r.last s.last && (r.first - s.first) % s.step == 0 &&
    (r.first == r.last || r.step % s.step == 0)

theorem within_iff {r s : CaseRun} : r.within s = true ↔ s.first ≤ r.first ∧ r.last ≤ s.last ∧
    (r.first - s.first) % s.step = 0 ∧ (r.first = r.last ∨ r.step % s.step = 0) := by
  simp [within, and_assoc]

theorem within_self (r : CaseRun) : r.within r = true :=
  within_iff.2 ⟨Nat.le_refl _, Nat.le_refl _, by simp, .inr (Nat.mod_self _)⟩

theorem covers_of_within {r s : CaseRun} (h : r.within s = true) {n : Nat}
    (hn : r.covers n = true) : s.covers n = true := by
  obtain ⟨hfirst, hlast, hstart, hstep⟩ := within_iff.1 h
  obtain ⟨h1, h2, h3⟩ := covers_iff.1 hn
  refine covers_iff.2 ⟨by omega, by omega, ?_⟩
  have hsum : n - s.first = (r.first - s.first) + (n - r.first) := by omega
  rw [hsum]
  refine Nat.mod_eq_zero_of_dvd (Nat.dvd_add (Nat.dvd_of_mod_eq_zero hstart) ?_)
  rcases hstep with heq | hstep
  · rw [Nat.sub_eq_zero_of_le (by omega)]
    exact Nat.dvd_zero _
  · exact Nat.dvd_trans (Nat.dvd_of_mod_eq_zero hstep) (Nat.dvd_of_mod_eq_zero h3)

/-- The code points to which `s` sends those of `r`. -/
def sentBy (r s : CaseRun) : CaseRun :=
  ⟨s.apply r.first, s.apply r.last, r.step, r.first⟩

theorem apply_of_covers {r s : CaseRun} (h : r.within s = true) {n : Nat}
    (hn : r.covers n = true) : s.apply n = s.apply r.first + (n - r.first) := by
  obtain ⟨hfirst, -⟩ := within_iff.1 h
  obtain ⟨h1, -⟩ := covers_iff.1 hn
  rw [← apply_add hfirst, Nat.add_sub_cancel' h1]

theorem covers_sentBy {r s : CaseRun} (h : r.within s = true) {n : Nat}
    (hn : r.covers n = true) : (r.sentBy s).covers (s.apply n) = true := by
  obtain ⟨hfirst, -⟩ := within_iff.1 h
  obtain ⟨h1, h2, h3⟩ := covers_iff.1 hn
  have hlast : s.apply r.last = s.apply r.first + (r.last - r.first) := by
    rw [← apply_add hfirst, Nat.add_sub_cancel' (by omega)]
  rw [apply_of_covers h hn, covers_iff]
  refine ⟨Nat.le_add_right _ _, ?_, ?_⟩
  · change _ ≤ s.apply r.last
    omega
  · change (s.apply r.first + (n - r.first) - s.apply r.first) % r.step = 0
    rw [Nat.add_sub_cancel_left, h3]

/-- All code points of the run are characters. -/
def isScalar (r : CaseRun) : Bool :=
  Nat.blt r.last 0xD800 || (Nat.blt 0xDFFF r.first && Nat.blt r.last 0x110000)

theorem isValidChar_of_isScalar {r : CaseRun} (h : r.isScalar = true) {n : Nat}
    (hn : r.covers n = true) : n.isValidChar := by
  obtain ⟨h1, h2, -⟩ := covers_iff.1 hn
  simp only [isScalar, Bool.or_eq_true, Nat.blt_eq, Bool.and_eq_true] at h
  rcases h with h | ⟨h3, h4⟩
  · exact .inl (by omega)
  · exact .inr ⟨by omega, by omega⟩

end CaseRun

/-! ## Finding the run that sends a whole run -/

section
variable {runs : List CaseRun} {r s : CaseRun} {n : Nat}

theorem find?_covers (h : runs.find? (r.meets ·) = some s) (hw : r.within s = true)
    (hn : r.covers n = true) : runs.find? (·.covers n) = some s := by
  obtain ⟨-, before, after, rfl, hbefore⟩ := List.find?_eq_some_iff_append.1 h
  refine List.find?_eq_some_iff_append.2
    ⟨CaseRun.covers_of_within hw hn, before, after, rfl, fun t ht => ?_⟩
  rw [CaseRun.not_covers_of_not_meets (by simpa using hbefore t ht) hn]
  rfl

theorem find?_covers_eq_none (h : runs.find? (r.meets ·) = none) (hn : r.covers n = true) :
    runs.find? (·.covers n) = none := by
  refine List.find?_eq_none.2 fun t ht => ?_
  rw [CaseRun.not_covers_of_not_meets (by simpa using List.find?_eq_none.1 h t ht) hn]
  decide

end

/-- The runs of a table in groups, each with a run that has all code points of the group. Few
groups have to be searched for a given run. -/
abbrev Groups := List (CaseRun × List CaseRun)

namespace Groups

/-- Groups of fourteen neighbours. -/
def ofRuns (runs : List CaseRun) : Groups :=
  (List.range (runs.length / 14 + 1)).map fun i =>
    let g := (runs.drop (14 * i)).take 14
    (⟨(g.map (·.first)).foldl Nat.min 0x110000, (g.map (·.last)).foldl Nat.max 0, 1, 0⟩, g)

/-- The groups are those of the table. -/
def isFor (gs : Groups) (runs : List CaseRun) : Bool :=
  decide (gs.flatMap (·.2) = runs) && gs.all fun g => g.2.all (·.within g.1)

/-- The first run of the table that may have a code point in common with `r`. -/
def meeting? (gs : Groups) (r : CaseRun) : Option CaseRun :=
  (gs.filter fun g => r.meets g.1).findSome? fun g => g.2.find? (r.meets ·)

section
variable {gs : Groups} {runs : List CaseRun} {r s : CaseRun} {n : Nat}

/-- A group that need not be searched has no run that covers the code point. -/
theorem find?_covers_group {g : CaseRun × List CaseRun} (h : g.2.all (·.within g.1) = true)
    (hg : r.meets g.1 = false) (hn : r.covers n = true) : g.2.find? (·.covers n) = none := by
  refine List.find?_eq_none.2 fun t ht hcovers => ?_
  have hgroup := CaseRun.covers_of_within (List.all_eq_true.1 h t ht) hcovers
  rw [CaseRun.not_covers_of_not_meets hg hn] at hgroup
  cases hgroup

theorem find?_covers_of_meeting? (hgs : gs.isFor runs = true) (hn : r.covers n = true)
    (hw : ∀ s, gs.meeting? r = some s → r.within s = true) :
    runs.find? (·.covers n) = gs.meeting? r := by
  simp only [isFor, Bool.and_eq_true, decide_eq_true_eq] at hgs
  obtain ⟨rfl, hall⟩ := hgs
  unfold meeting? at hw ⊢
  rw [List.find?_flatMap]
  induction gs with
  | nil => rfl
  | cons g gs ih =>
    rw [List.all_cons, Bool.and_eq_true] at hall
    rw [List.findSome?_cons, List.filter_cons]
    cases hg : r.meets g.1 with
    | false =>
      rw [find?_covers_group hall.1 hg hn]
      rw [List.filter_cons, hg] at hw
      exact ih hw hall.2
    | true =>
      rw [List.filter_cons, hg, if_pos rfl, List.findSome?_cons] at hw
      rw [if_pos rfl, List.findSome?_cons]
      cases hfind : g.2.find? (r.meets ·) with
      | none =>
        rw [hfind] at hw
        rw [find?_covers_eq_none hfind hn]
        exact ih hw hall.2
      | some t =>
        rw [hfind] at hw
        rw [find?_covers hfind (hw t rfl) hn]

end

end Groups

/-! ## Tables -/

/-- The code points to which the tables send those of `r`, if all are sent alike or all stay; none
if some have an expansion. -/
def sent? (runs keys : Groups) (r : CaseRun) : Option CaseRun :=
  match keys.meeting? r with
  | some _ => none
  | none =>
    match runs.meeting? r with
    | none => some r
    | some s => bif r.within s then some (r.sentBy s) else none

/-- The code points that have an expansion. -/
def keyRuns (expansions : List (Nat × List Nat)) : List CaseRun :=
  expansions.map fun e => CaseRun.single e.1

/-- Everything that the tables give is a character, and no underscore. -/
def isClean (runs : List CaseRun) (expansions : List (Nat × List Nat)) : Bool :=
  (runs.all fun r => (r.sentBy r).isScalar && !(r.sentBy r).covers 0x5F) &&
    expansions.all fun e =>
      !e.2.isEmpty && e.2.all fun m => (CaseRun.single m).isScalar && m != 0x5F

/-- What the forms given by the tables start with. -/
def starts (runs : List CaseRun) (expansions : List (Nat × List Nat)) : List CaseRun :=
  (runs.map fun r => r.sentBy r) ++ expansions.map fun e => CaseRun.single (e.2.headD 0)

section
variable {runs : List CaseRun} {expansions : List (Nat × List Nat)} {r s : CaseRun} {n : Nat}

theorem lookup_of_find?_keyRuns (h : (keyRuns expansions).find? (·.covers n) = none) :
    expansions.lookup n = none := by
  refine List.lookup_eq_none_iff.2 fun e he => bne_iff_ne.2 ?_
  rintro rfl
  have hmem : CaseRun.single e.1 ∈ keyRuns expansions := List.mem_map_of_mem he
  exact List.find?_eq_none.1 h _ hmem (CaseRun.covers_single e.1)

/-- If a run is sent as a whole, each of its code points keeps its place in it. -/
theorem mapCase_of_sent? {gs keys : Groups} (hgs : gs.isFor runs = true)
    (hkeys : keys.isFor (keyRuns expansions) = true) (h : sent? gs keys r = some s)
    (hn : r.covers n = true) : mapCase runs expansions n = [s.first + (n - r.first)] ∧
      s.covers (s.first + (n - r.first)) = true := by
  unfold sent? at h
  split at h
  · cases h
  rename_i hnone
  have hkey := Groups.find?_covers_of_meeting? hkeys hn fun s hs => by
    rw [hnone] at hs
    cases hs
  rw [mapCase, lookup_of_find?_keyRuns (hkey.trans hnone)]
  split at h
  · rename_i hmeet
    cases h
    have hfind := Groups.find?_covers_of_meeting? hgs hn fun s hs => by
      rw [hmeet] at hs
      cases hs
    rw [hfind, hmeet, Nat.add_sub_cancel' (CaseRun.covers_iff.1 hn).1]
    exact ⟨rfl, hn⟩
  · rename_i t hmeet
    cases hw : r.within t with
    | false =>
      rw [hw] at h
      cases h
    | true =>
      rw [hw] at h
      cases h
      have hfind := Groups.find?_covers_of_meeting? hgs hn fun s hs => by
        obtain rfl := Option.some.inj (hmeet.symm.trans hs)
        exact hw
      have happly : t.apply n = (r.sentBy t).first + (n - r.first) :=
        CaseRun.apply_of_covers hw hn
      rw [hfind, hmeet, ← happly]
      exact ⟨rfl, CaseRun.covers_sentBy hw hn⟩

/-- A code point has an expansion, is sent by a run, or stays. -/
theorem mapCase_cases (runs : List CaseRun) (expansions : List (Nat × List Nat)) (n : Nat) :
    (∃ e ∈ expansions, mapCase runs expansions n = e.2) ∨
      (∃ r ∈ runs, (r.sentBy r).covers (r.apply n) = true ∧
        mapCase runs expansions n = [r.apply n]) ∨
      mapCase runs expansions n = [n] := by
  unfold mapCase
  split
  · rename_i codes h
    obtain ⟨before, after, rfl, -⟩ := List.lookup_eq_some_iff.1 h
    exact .inl ⟨(n, codes), by simp, rfl⟩
  · split
    · rename_i r h
      have hn : r.covers n = true := List.find?_some (p := fun r : CaseRun => r.covers n) h
      exact .inr (.inl ⟨r, List.mem_of_find?_eq_some h,
        CaseRun.covers_sentBy r.within_self hn, rfl⟩)
    · exact .inr (.inr rfl)

theorem mapCase_of_isClean (h : isClean runs expansions = true) (n : Nat) :
    mapCase runs expansions n ≠ [] ∧ ∀ m ∈ mapCase runs expansions n,
      m = n ∨ (m.isValidChar ∧ m ≠ 0x5F) := by
  simp only [isClean, Bool.and_eq_true, List.all_eq_true, Bool.not_eq_true', bne_iff_ne] at h
  obtain ⟨hruns, hexpansions⟩ := h
  rcases mapCase_cases runs expansions n with ⟨e, he, heq⟩ | ⟨r, hr, hcovers, heq⟩ | heq
  · obtain ⟨hne, hcodes⟩ := hexpansions e he
    rw [heq]
    refine ⟨fun hnil => by simp [hnil] at hne, fun m hm => .inr ⟨?_, (hcodes m hm).2⟩⟩
    exact CaseRun.isValidChar_of_isScalar (hcodes m hm).1 (CaseRun.covers_single m)
  · obtain ⟨hscalar, hunderscore⟩ := hruns r hr
    rw [heq]
    refine ⟨List.cons_ne_nil _ _, fun m hm => ?_⟩
    obtain rfl := List.mem_singleton.1 hm
    refine .inr ⟨CaseRun.isValidChar_of_isScalar hscalar hcovers, fun hm => ?_⟩
    rw [hm, hunderscore] at hcovers
    cases hcovers
  · rw [heq]
    exact ⟨List.cons_ne_nil _ _, fun m hm => .inl (List.mem_singleton.1 hm)⟩

theorem mapCase_start {m : Nat} {ms : List Nat} (h : mapCase runs expansions n = m :: ms) :
    mapCase runs expansions n = [n] ∨ ∃ r ∈ starts runs expansions, r.covers m = true := by
  rcases mapCase_cases runs expansions n with ⟨e, he, heq⟩ | ⟨r, hr, hcovers, heq⟩ | heq
  · have hm : e.2.headD 0 = m := by
      rw [← heq, h]
      rfl
    refine .inr ⟨CaseRun.single m, List.mem_append_right _ ?_, CaseRun.covers_single m⟩
    exact hm ▸ List.mem_map_of_mem he
  · obtain ⟨rfl, -⟩ := List.cons.inj (h.symm.trans heq)
    exact .inr ⟨r.sentBy r, List.mem_append_left _ (List.mem_map_of_mem hr), hcovers⟩
  · exact .inl heq

end

/-! ## The two case maps -/

theorem isClean_lower : isClean lowerRuns lowerExpansions = true := by decide +kernel

theorem isClean_upper : isClean upperRuns upperExpansions = true := by decide +kernel

/-- The runs of the tables for lower case. -/
def lowerGroups : Groups :=
  .ofRuns lowerRuns

/-- The code points with an expansion in lower case. -/
def lowerKeys : Groups :=
  .ofRuns (keyRuns lowerExpansions)

/-- The runs of the tables for upper case. -/
def upperGroups : Groups :=
  .ofRuns upperRuns

/-- The code points with an expansion in upper case. -/
def upperKeys : Groups :=
  .ofRuns (keyRuns upperExpansions)

theorem isFor_lower : lowerGroups.isFor lowerRuns = true ∧
    lowerKeys.isFor (keyRuns lowerExpansions) = true := by
  decide +kernel

theorem isFor_upper : upperGroups.isFor upperRuns = true ∧
    upperKeys.isFor (keyRuns upperExpansions) = true := by
  decide +kernel

/-- What lower-case forms start with is in lower case. -/
theorem sent?_lower : ((starts lowerRuns lowerExpansions).all fun r =>
    (sent? lowerGroups lowerKeys r).any fun s => s.first == r.first) = true := by
  decide +kernel

/-- What upper-case forms start with comes back from its lower-case form. -/
theorem sent?_upper : ((starts upperRuns upperExpansions).all fun r =>
    ((sent? lowerGroups lowerKeys r).bind (sent? upperGroups upperKeys)).any
      fun s => s.first == r.first) = true := by
  decide +kernel

theorem toNat_ofNat {n : Nat} (h : n.isValidChar) : (Char.ofNat n).toNat = n := by
  rw [Char.ofNat, dif_pos h]
  rfl

theorem toLower_ofNat {n : Nat} (h : n.isValidChar) :
    toLower (Char.ofNat n) = (mapCase lowerRuns lowerExpansions n).map Char.ofNat := by
  rw [toLower, toNat_ofNat h]

theorem toUpper_ofNat {n : Nat} (h : n.isValidChar) :
    toUpper (Char.ofNat n) = (mapCase upperRuns upperExpansions n).map Char.ofNat := by
  rw [toUpper, toNat_ofNat h]

theorem isValidChar_of_isClean {runs : List CaseRun} {expansions : List (Nat × List Nat)}
    (h : isClean runs expansions = true) {n m : Nat} (hn : n.isValidChar)
    (hm : m ∈ mapCase runs expansions n) : m.isValidChar := by
  rcases (mapCase_of_isClean h n).2 m hm with rfl | ⟨hm, -⟩
  · exact hn
  · exact hm

/-- Only the underscore is mapped to a form with an underscore. -/
theorem underscore_not_mem_mapCase {runs : List CaseRun} {expansions : List (Nat × List Nat)}
    (h : isClean runs expansions = true) {c : Char} (hc : c ≠ '_') :
    '_' ∉ (mapCase runs expansions c.toNat).map Char.ofNat := by
  intro hmem
  obtain ⟨m, hm, heq⟩ := List.mem_map.1 hmem
  have hv : m.isValidChar := isValidChar_of_isClean h c.valid hm
  have hnat : m = '_'.toNat := by rw [← heq, toNat_ofNat hv]
  rcases (mapCase_of_isClean h c.toNat).2 m hm with hm | ⟨-, hne⟩
  · exact hc (Char.toNat_inj.1 (hm.symm.trans hnat))
  · exact hne hnat

theorem underscore_not_mem_toLower {c : Char} (hc : c ≠ '_') : '_' ∉ toLower c :=
  underscore_not_mem_mapCase isClean_lower hc

theorem underscore_not_mem_toUpper {c : Char} (hc : c ≠ '_') : '_' ∉ toUpper c :=
  underscore_not_mem_mapCase isClean_upper hc

/-- The lower-case form of a character starts with a character in lower case. -/
theorem exists_toLower (c : Char) : ∃ d ds, toLower c = d :: ds ∧ toLower d = [d] := by
  obtain ⟨m, ms, hm⟩ := List.exists_cons_of_ne_nil (mapCase_of_isClean isClean_lower c.toNat).1
  have hv : m.isValidChar := isValidChar_of_isClean isClean_lower c.valid (hm ▸ .head _)
  refine ⟨Char.ofNat m, ms.map Char.ofNat, by rw [toLower, hm, List.map_cons], ?_⟩
  rw [toLower_ofNat hv]
  rcases mapCase_start hm with hstay | ⟨r, hr, hcovers⟩
  · obtain ⟨rfl, -⟩ := List.cons.inj (hm.symm.trans hstay)
    rw [hstay]
    rfl
  · obtain ⟨s, hs, hfirst⟩ := (Option.any_eq_true ..).1 (List.all_eq_true.1 sent?_lower r hr)
    have hplace : s.first + (m - r.first) = m := by
      rw [beq_iff_eq.1 hfirst, Nat.add_sub_cancel' (CaseRun.covers_iff.1 hcovers).1]
    rw [(mapCase_of_sent? isFor_lower.1 isFor_lower.2 hs hcovers).1, hplace]
    rfl

/-- The upper-case form of a character in lower case starts with a character that comes back when
it is lowered and raised. -/
theorem exists_toUpper {d : Char} (hd : toLower d = [d]) :
    ∃ u us l, toUpper d = u :: us ∧ toLower u = [l] ∧ toUpper l = [u] := by
  obtain ⟨m, ms, hm⟩ := List.exists_cons_of_ne_nil (mapCase_of_isClean isClean_upper d.toNat).1
  have hv : m.isValidChar := isValidChar_of_isClean isClean_upper d.valid (hm ▸ .head _)
  rcases mapCase_start hm with hstay | ⟨r, hr, hcovers⟩
  · have hupper : toUpper d = [d] := by
      rw [toUpper, hstay, List.map_singleton, Char.ofNat_toNat]
    exact ⟨d, [], d, hupper, hd, hupper⟩
  · obtain ⟨t, ht, hfirst⟩ := (Option.any_eq_true ..).1 (List.all_eq_true.1 sent?_upper r hr)
    obtain ⟨s, hs, ht⟩ := Option.bind_eq_some_iff.1 ht
    obtain ⟨hlower, hcovers'⟩ :=
      mapCase_of_sent? isFor_lower.1 isFor_lower.2 hs hcovers
    obtain ⟨hupper, -⟩ := mapCase_of_sent? isFor_upper.1 isFor_upper.2 ht hcovers'
    have hplace : t.first + (s.first + (m - r.first) - s.first) = m := by
      rw [beq_iff_eq.1 hfirst, Nat.add_sub_cancel_left,
        Nat.add_sub_cancel' (CaseRun.covers_iff.1 hcovers).1]
    have hl : (s.first + (m - r.first)).isValidChar :=
      isValidChar_of_isClean isClean_lower hv (hlower ▸ .head _)
    refine ⟨Char.ofNat m, ms.map Char.ofNat, Char.ofNat (s.first + (m - r.first)),
      by rw [toUpper, hm, List.map_cons], ?_, ?_⟩
    · rw [toLower_ofNat hv, hlower]
      rfl
    · rw [toUpper_ofNat hl, hupper, hplace]
      rfl

end EntityForge.Unicode
