import ScriptBoundary.Calls.Delegate
import ScriptBoundary.Proofs.Conversions
import ScriptBoundary.Proofs.Exactness

/-!
# The instants of script dates

A date of a script is any double, and three conversions look for its instant: that to a native date,
that to the texts of a multimap and that to JSON. The first asks whether the double is a number, the
others go by the nearest integer of sixty-four bits. Past the calendar there is no instant either
way (`Instant.ofDateSaturating?_eq`), so that all three treat a date alike unless it is no number at
all; such a date is refused by the first and taken for the start of 1970 by the others
(`dates_agree_iff`).
-/

namespace ScriptBoundary

open Run

namespace Instant

/-- The calendar has nothing that many milliseconds away from 1970. -/
theorem ofMillis?_eq_none {m : Int} (h : m < -2 ^ 63 + 1 ∨ 2 ^ 63 - 1 ≤ m) :
    ofMillis? m = none :=
  dif_neg fun hparts => by omega

/-- An instant is found for its whole milliseconds. -/
theorem ofMillis?_eq_some_iff {m : Int} {t : Instant} :
    ofMillis? m = some t ↔ m = t.millis ∧ t.IsWhole := by
  constructor
  · intro h
    exact ⟨(millis_of_ofMillis? h).symm, isWhole_of_ofMillis? h⟩
  · rintro ⟨rfl, h⟩
    exact ofMillis?_millis h

/-- Going to the nearest integer of sixty-four bits first neither finds an instant nor loses one. -/
theorem ofMillis?_clamp (m : Int) : ofMillis? (Word.clamp .i64 m).val = ofMillis? m := by
  have hmin : IntKind.i64.min = -2 ^ 63 := rfl
  have hmax : IntKind.i64.max = 2 ^ 63 - 1 := rfl
  simp only [Word.clamp]
  by_cases hlow : m < IntKind.i64.min
  · rw [if_pos hlow, ofMillis?_eq_none (.inl (by omega)), ofMillis?_eq_none (.inl (by omega))]
  · rw [if_neg hlow]
    by_cases hhigh : IntKind.i64.max < m
    · rw [if_pos hhigh, ofMillis?_eq_none (.inr (by omega)), ofMillis?_eq_none (.inr (by omega))]
    · rw [if_neg hhigh]

/-- A date that is a number stands for the same instant in a text and where one is asked for. -/
theorem ofDateSaturating?_eq {millis : Binary .f64} (h : millis ≠ .nan) :
    ofDateSaturating? millis = ofDate? millis := by
  cases millis with
  | nan => exact (h rfl).elim
  | infinite negative => cases negative <;> decide +kernel
  | finite negative units held => exact ofMillis?_clamp _

/-- The instant of a date is the one so many whole milliseconds after the start of 1970. -/
theorem ofDate?_eq_some_iff {millis : Binary .f64} {t : Instant} :
    ofDate? millis = some t ↔ millis.truncate? = some t.millis ∧ t.IsWhole := by
  rw [ofDate?, Option.bind_eq_some_iff]
  constructor
  · rintro ⟨m, hm, ht⟩
    obtain ⟨rfl, hwhole⟩ := ofMillis?_eq_some_iff.1 ht
    exact ⟨hm, hwhole⟩
  · rintro ⟨hm, hwhole⟩
    exact ⟨t.millis, hm, ofMillis?_millis hwhole⟩

end Instant

/-- The text of a date among those of a multimap is that of its instant. -/
theorem ScriptValue.scalarText?_date {millis : Binary .f64} (h : millis ≠ .nan) :
    (date millis).scalarText? =
      (Instant.ofDate? millis).map fun t => some (t.text .millis "Z") := by
  rw [scalarText?, Instant.ofDateSaturating?_eq h]

/-- The JSON of a date is the text of its instant, or null. -/
theorem Instant.dateToJson_eq {millis : Binary .f64} (h : millis ≠ .nan) :
    dateToJson millis =
      (ofDate? millis).elim .null fun t => .string (t.text .needed "+00:00") := by
  rw [dateToJson, ofDateSaturating?_eq h]
  cases ofDate? millis <;> rfl

/-! ## The entries of a multimap -/

/-- What an entry of an object is among the entries of a multimap: an array gives the texts of its
scalars, a scalar its text, and what has no text is left out. -/
def Heap.texts? (h : Heap) (entry : String × ScriptValue) :
    Option (String × List (Option String)) :=
  match entry.2 with
  | .array a => some (entry.1, (h.items a).filterMap ScriptValue.scalarText?)
  | value => value.scalarText?.map fun text => (entry.1, [text])

theorem Heap.texts?_date (h : Heap) (key : String) {millis : Binary .f64} (hnan : millis ≠ .nan) :
    h.texts? (key, .date millis) =
      (Instant.ofDate? millis).map fun t => (key, [some (t.text .millis "Z")]) := by
  show (ScriptValue.date millis).scalarText?.map _ = _
  rw [ScriptValue.scalarText?_date hnan, Option.map_map]
  rfl

/-- What is chosen from a list with one element in its midst. -/
theorem filterMap_middle {α β : Type} (f : α → Option β) (before : List α) (a : α)
    (after : List α) : (before ++ a :: after).filterMap f =
      before.filterMap f ++ ((f a).toList ++ after.filterMap f) := by
  rw [List.filterMap_append, List.filterMap_cons]
  cases f a <;> rfl

/-- The entries of a multimap are those of the object that have texts. -/
theorem Reentry.textEntries_of_entries {r : Reentry} {o : ObjectId} {w w' : World}
    {entries : List (String × ScriptValue)} (h : r.entries o w = some (.ok entries, w')) :
    r.textEntries o w = some (.ok (entries.filterMap w'.heap.texts?), w') := by
  rw [textEntries, bind_ok h]
  refine (bind_ok (mapM_forall₂
    (show List.Forall₂ _ entries (entries.map w'.heap.texts?) from ?_)) _).trans ?_
  · rw [List.forall₂_map_right_iff]
    refine List.forall₂_same.2 fun entry _ => ?_
    obtain ⟨key, value⟩ := entry
    cases value <;> rfl
  · rw [List.filterMap_map, Function.id_comp]
    rfl

/-! ## The three conversions -/

namespace Catalog

variable (catalog : Catalog) {millis : Binary .f64}

/-- The conversions of a date all find the instant, or none of them finds one. -/
structure ConvertsAs (catalog : Catalog) (millis : Binary .f64) (t? : Option Instant) : Prop where
  /-- The instant lies so many whole milliseconds after the start of 1970. -/
  instant (t : Instant) : t? = some t ↔ millis.truncate? = some t.millis ∧ t.IsWhole
  /-- A native date is the instant, and out of range without one. -/
  native (r : Reentry) (w : World) :
    catalog.toNative r .datetime (.date millis) w =
      some (t?.elim (.error (.conversion (.outOfRange "datetime" (Layout.plain.render millis))))
        fun t => .ok (.datetime t), w)
  /-- An entry of an object is the text of the instant in a multimap, and left out without one. -/
  entry {r : Reentry} {o : ObjectId} {w w' : World} {before after : List (String × ScriptValue)}
    {key : String} (h : r.entries o w = some (.ok (before ++ (key, .date millis) :: after), w')) :
    catalog.toNative r .multimap (.object o) w =
      some (.ok (.multimap (before.filterMap w'.heap.texts? ++
        ((t?.map fun t => (key, [some (t.text .millis "Z")])).toList ++
          after.filterMap w'.heap.texts?))), w')
  /-- So is an item of an array under a key. -/
  item {h : Heap} {a : ArrayId} {before after : List ScriptValue}
    (items : h.items a = before ++ .date millis :: after) (key : String) :
    h.texts? (key, .array a) = some (key, before.filterMap ScriptValue.scalarText? ++
      ((t?.map fun t => some (t.text .millis "Z")).toList ++
        after.filterMap ScriptValue.scalarText?))
  /-- In JSON a date is the text of the instant, and null without one, alone or within a value. -/
  json (r : Reentry) (n : Nat) (w : World) :
    r.toJson (n + 1) (.date millis) w =
      some (.ok (some (t?.elim .null fun t => .string (t.text .needed "+00:00"))), w)
  jsonText {r : Reentry} (room : 0 < r.depth) (w : World) :
    catalog.toNative r .json (.date millis) w =
      some (.ok (.json (Json.render (t?.elim .null fun t => .string (t.text .needed "+00:00")))), w)

/-- Any date but not-a-number is converted as the instant that is looked for where a native date is
asked for. -/
theorem convertsAs_ofDate? (hnan : millis ≠ .nan) :
    catalog.ConvertsAs millis (Instant.ofDate? millis) where
  instant _ := Instant.ofDate?_eq_some_iff
  native r w := by
    rw [toNative_datetime, Instant.ofDate]
    cases Instant.ofDate? millis <;> rfl
  entry h := by
    rw [toNative_multimap, map_ok (Reentry.textEntries_of_entries h), filterMap_middle,
      Heap.texts?_date _ _ hnan]
  item {h a _ _} items key := by
    show some (key, (h.items a).filterMap ScriptValue.scalarText?) = _
    rw [items, filterMap_middle, ScriptValue.scalarText?_date hnan]
  json r n w := by
    rw [← Instant.dateToJson_eq hnan]
    rfl
  jsonText {r} room w := by
    obtain ⟨n, hn⟩ := Nat.exists_eq_succ_of_ne_zero (Nat.ne_of_gt room)
    rw [← Instant.dateToJson_eq hnan, toNative_json catalog r rfl, Reentry.jsonText, hn]
    rfl

/-- Not-a-number is no date, and has the text of the start of 1970 in JSON all the same. -/
theorem not_convertsAs_nan (t? : Option Instant) : ¬ catalog.ConvertsAs .nan t? := by
  intro h
  have hnone : t? = none := by
    refine Option.eq_none_iff_forall_ne_some.2 fun t ht => ?_
    cases ((h.instant t).1 ht).1
  subst hnone
  cases h.json (catalog.reentry 0) 0 default

/-- All conversions of a script date agree on whether there is such a date and on its instant, for
every double but not-a-number. -/
theorem dates_agree_iff (catalog : Catalog) (millis : Binary .f64) :
    (∃ t?, catalog.ConvertsAs millis t?) ↔ millis ≠ .nan := by
  constructor
  · rintro ⟨t?, h⟩ rfl
    exact catalog.not_convertsAs_nan t? h
  · intro hnan
    exact ⟨_, catalog.convertsAs_ofDate? hnan⟩

/-- The objects of a script with a note that is due at a date. -/
def noteWorld (due : Binary .f64) : World :=
  { (default : World) with
    heap := { (default : Heap) with
      objects := #[.plain, ⟨"Object", [], none, [("due", .data (.date due))]⟩] } }

/-- A date that is no number is no date, and yet the first day of 1970 in texts and in JSON. -/
theorem unset_date_becomes_epoch :
    empty.toNative (empty.reentry 1) .datetime (.date .nan) default =
        some (.error (.conversion (.outOfRange "datetime" "NaN")), default) ∧
      empty.toNative (empty.reentry 1) .multimap (.object ⟨1⟩) (noteWorld .nan) =
        some (.ok (.multimap [("due", [some "1970-01-01T00:00:00.000Z"])]), noteWorld .nan) ∧
      empty.toNative (empty.reentry 1) .json (.date .nan) default =
        some (.ok (.json "\"1970-01-01T00:00:00+00:00\""), default) :=
  ⟨rfl, rfl, rfl⟩

end Catalog

end ScriptBoundary
