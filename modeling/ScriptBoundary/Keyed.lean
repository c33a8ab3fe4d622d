/-!
# Lists of entries by key

Entries in the order in which their keys first came. Writing under a key that is present replaces
the value where it stands; a new key goes to the end. So no key comes twice (`nodup_keys_put`), and
the order of the keys is the order of first arrival (`keys_put`).
-/

namespace ScriptBoundary.Keyed

variable {κ α : Type} [DecidableEq κ]

/-- The value under a key. -/
def get? (key : κ) : List (κ × α) → Option α
  | [] => none
  | (k, a) :: rest => if k = key then some a else get? key rest

/-- Writes a value under a key. -/
def put (key : κ) (value : α) : List (κ × α) → List (κ × α)
  | [] => [(key, value)]
  | (k, a) :: rest => if k = key then (k, value) :: rest else (k, a) :: put key value rest

/-- The keys in order. -/
def keys (entries : List (κ × α)) : List κ := entries.map (·.1)

@[simp] theorem get?_put_self (key : κ) (value : α) (entries : List (κ × α)) :
    get? key (put key value entries) = some value := by
  induction entries with
  | nil => simp [put, get?]
  | cons e rest ih => obtain ⟨k, a⟩ := e; by_cases h : k = key <;> simp [put, get?, h, ih]

theorem get?_put_of_ne {key other : κ} (h : other ≠ key) (value : α) (entries : List (κ × α)) :
    get? other (put key value entries) = get? other entries := by
  induction entries with
  | nil => simp [put, get?, Ne.symm h]
  | cons e rest ih =>
    obtain ⟨k, a⟩ := e
    by_cases hk : k = key
    · subst hk; simp [put, get?, Ne.symm h]
    · by_cases ho : k = other
      · subst ho; simp [put, get?, hk]
      · simp [put, get?, hk, ho, ih]

theorem keys_put (key : κ) (value : α) (entries : List (κ × α)) :
    keys (put key value entries) =
      if key ∈ keys entries then keys entries else keys entries ++ [key] := by
  induction entries with
  | nil => simp [put, keys]
  | cons e rest ih =>
    obtain ⟨k, a⟩ := e
    by_cases hk : k = key
    · simp [put, keys, hk]
    · have ih' : (put key value rest).map (·.1) =
          if key ∈ rest.map (·.1) then rest.map (·.1) else rest.map (·.1) ++ [key] := ih
      simp only [put, keys, hk, if_false, List.map_cons, ih', List.mem_cons, Ne.symm hk, false_or]
      split <;> rfl

/-- Nothing is found under a key exactly when the key is not there. -/
theorem get?_eq_none_iff {key : κ} {entries : List (κ × α)} :
    get? key entries = none ↔ key ∉ keys entries := by
  induction entries with
  | nil => simp [get?, keys]
  | cons e rest ih =>
    obtain ⟨k, a⟩ := e
    by_cases h : k = key
    · simp [get?, keys, h]
    · have hk : key ≠ k := Ne.symm h
      simpa [get?, keys, h, hk] using ih

/-- What stands under a key that comes once is found. -/
theorem get?_eq_some_of_mem {key : κ} {value : α} {entries : List (κ × α)}
    (h : (keys entries).Nodup) (hmem : (key, value) ∈ entries) : get? key entries = some value := by
  induction entries with
  | nil => cases hmem
  | cons e rest ih =>
    obtain ⟨k, a⟩ := e
    obtain ⟨hk, hrest⟩ := List.nodup_cons.1 h
    rcases List.mem_cons.1 hmem with heq | hmem
    · cases heq
      simp [get?]
    · have hne : k ≠ key := by
        rintro rfl
        exact hk (List.mem_map.2 ⟨_, hmem, rfl⟩)
      rw [get?, if_neg hne, ih hrest hmem]

/-- What is found under a key stands there. -/
theorem mem_of_get? {key : κ} {value : α} {entries : List (κ × α)}
    (h : get? key entries = some value) : (key, value) ∈ entries := by
  induction entries with
  | nil => cases h
  | cons e rest ih =>
    obtain ⟨k, a⟩ := e
    rw [get?] at h
    split at h
    · next hk =>
      cases h
      rw [hk]
      exact List.mem_cons_self
    · exact List.mem_cons_of_mem _ (ih h)

/-- Writing under a key that is not there puts it at the end. -/
theorem put_of_not_mem {key : κ} {entries : List (κ × α)} (h : key ∉ keys entries) (value : α) :
    put key value entries = entries ++ [(key, value)] := by
  induction entries with
  | nil => rfl
  | cons e rest ih =>
    obtain ⟨k, a⟩ := e
    obtain ⟨hk, hrest⟩ := not_or.1 (mt List.mem_cons.2 h)
    rw [put, if_neg (Ne.symm hk), ih hrest, List.cons_append]

/-- Other keys keep what stands under them when an entry goes to the end. -/
theorem get?_append_of_ne {key other : κ} (h : other ≠ key) (value : α) (entries : List (κ × α)) :
    get? other (entries ++ [(key, value)]) = get? other entries := by
  induction entries with
  | nil => simp [get?, Ne.symm h]
  | cons e rest ih =>
    obtain ⟨k, a⟩ := e
    simp only [List.cons_append, get?, ih]

/-- Writing never makes a key come twice. -/
theorem nodup_keys_put {entries : List (κ × α)} (h : (keys entries).Nodup) (key : κ) (value : α) :
    (keys (put key value entries)).Nodup := by
  rw [keys_put]
  split
  · exact h
  · next hk =>
    refine List.nodup_append.2 ⟨h, by simp, fun a ha b hb e => ?_⟩
    obtain rfl := List.mem_singleton.1 hb
    exact hk (e ▸ ha)

/-- An element that comes again is passed over, and one that is new goes to the end. -/
theorem eraseDups_concat (l : List κ) (key : κ) :
    (l ++ [key]).eraseDups =
      if key ∈ l.eraseDups then l.eraseDups else l.eraseDups ++ [key] := by
  by_cases hmem : key ∈ l
  · have hnone : [key].removeAll l = [] := by simpa [List.removeAll] using hmem
    rw [List.eraseDups_append, hnone, List.eraseDups_nil, List.append_nil,
      if_pos (List.mem_eraseDups.2 hmem)]
  · have hone : [key].removeAll l = [key] := by simpa [List.removeAll] using hmem
    rw [List.eraseDups_append, hone, if_neg (mt List.mem_eraseDups.1 hmem)]
    rfl

/-- Nothing is left out of a list without repetitions. -/
theorem eraseDups_of_nodup {l : List κ} (h : l.Nodup) : l.eraseDups = l := by
  induction l with
  | nil => rfl
  | cons a l ih =>
    obtain ⟨ha, hl⟩ := List.nodup_cons.1 h
    have hall : l.filter (!· == a) = l := by
      refine List.filter_eq_self.2 fun b hb => ?_
      have hne : b ≠ a := fun e => ha (e ▸ hb)
      simpa using hne
    rw [List.eraseDups_cons, hall, ih hl]

end ScriptBoundary.Keyed
