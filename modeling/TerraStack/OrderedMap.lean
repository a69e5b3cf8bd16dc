namespace TerraStack

/-- Entries in the order in which their keys were first set, each key once. A stack is written by
hand, and its order is meaningful: blocks come out in the order in which their sections went in. -/
structure OrderedMap (κ α : Type) where
  entries : List (κ × α)
  distinct : (entries.map Prod.fst).Nodup

namespace OrderedMap

variable {κ α : Type} [DecidableEq κ]

/-- Set `key` to `value`: in its place if the key is there, else at the end. -/
def setEntry (key : κ) (value : α) : List (κ × α) → List (κ × α)
  | [] => [(key, value)]
  | entry :: rest =>
    if entry.1 = key then (key, value) :: rest else entry :: setEntry key value rest

/-- Setting a key adds no other key and drops none. -/
theorem mem_keys_setEntry {key other : κ} {value : α} {entries : List (κ × α)} :
    other ∈ (setEntry key value entries).map Prod.fst ↔
      other = key ∨ other ∈ entries.map Prod.fst := by
  induction entries with
  | nil => simp [setEntry]
  | cons entry rest ih =>
    by_cases hkey : entry.1 = key
    · simp [setEntry, hkey]
    · simp only [setEntry, hkey, if_false, List.map_cons, List.mem_cons, ih]
      grind

/-- Keys stay distinct when one of them is set. -/
theorem nodup_setEntry {key : κ} {value : α} {entries : List (κ × α)}
    (hnodup : (entries.map Prod.fst).Nodup) : ((setEntry key value entries).map Prod.fst).Nodup := by
  induction entries with
  | nil => simp [setEntry]
  | cons entry rest ih =>
    simp only [List.map_cons, List.nodup_cons] at hnodup
    by_cases hkey : entry.1 = key
    · simp only [setEntry, hkey, if_true, List.map_cons, List.nodup_cons]
      exact ⟨hkey ▸ hnodup.1, hnodup.2⟩
    · simp only [setEntry, hkey, if_false, List.map_cons, List.nodup_cons]
      refine ⟨fun hmem => ?_, ih hnodup.2⟩
      rcases mem_keys_setEntry.1 hmem with heq | hrest
      · exact hkey heq
      · exact hnodup.1 hrest

/-- A new key comes behind the others. -/
theorem setEntry_of_not_mem {key : κ} {value : α} {entries : List (κ × α)}
    (hfresh : key ∉ entries.map Prod.fst) : setEntry key value entries = entries ++ [(key, value)] := by
  induction entries with
  | nil => rfl
  | cons entry rest ih =>
    rw [List.map_cons, List.mem_cons, not_or] at hfresh
    rw [setEntry, if_neg (Ne.symm hfresh.1), ih hfresh.2, List.cons_append]

/-- Every entry behind a change is the one that was set or an old one. -/
theorem mem_setEntry {key : κ} {value : α} {entries : List (κ × α)} {entry : κ × α}
    (hmem : entry ∈ setEntry key value entries) : entry = (key, value) ∨ entry ∈ entries := by
  induction entries with
  | nil => exact .inl (List.mem_singleton.mp hmem)
  | cons first rest ih =>
    unfold setEntry at hmem
    split at hmem
    · exact (List.mem_cons.mp hmem).imp_right (List.mem_cons_of_mem first)
    · rcases List.mem_cons.mp hmem with rfl | hrest
      · exact .inr List.mem_cons_self
      · exact (ih hrest).imp_right (List.mem_cons_of_mem first)

/-- The map without entries. -/
def empty : OrderedMap κ α := ⟨[], by simp⟩

instance : EmptyCollection (OrderedMap κ α) := ⟨empty⟩

instance : Inhabited (OrderedMap κ α) := ⟨empty⟩

/-- Set `key` to `value`, keeping the place of a key that is already there. -/
def insert (map : OrderedMap κ α) (key : κ) (value : α) : OrderedMap κ α :=
  ⟨setEntry key value map.entries, nodup_setEntry map.distinct⟩

/-- The map that results from setting the entries one after another. -/
def ofList (entries : List (κ × α)) : OrderedMap κ α :=
  entries.foldl (fun map entry => map.insert entry.1 entry.2) empty

/-- The value of `key`, if it has one. -/
def find? (map : OrderedMap κ α) (key : κ) : Option α :=
  map.entries.lookup key

/-- Whether `key` has a value. -/
def contains (map : OrderedMap κ α) (key : κ) : Bool :=
  (map.find? key).isSome

/-- The keys, in order. -/
def keys (map : OrderedMap κ α) : List κ :=
  map.entries.map Prod.fst

/-- The values, in the order of their keys. -/
def values (map : OrderedMap κ α) : List α :=
  map.entries.map Prod.snd

def size (map : OrderedMap κ α) : Nat :=
  map.entries.length

def isEmpty (map : OrderedMap κ α) : Bool :=
  map.entries.isEmpty

/-- Keep the entries that `keep` accepts. -/
def filter (map : OrderedMap κ α) (keep : κ → α → Bool) : OrderedMap κ α :=
  ⟨map.entries.filter (fun entry => keep entry.1 entry.2),
    (List.filter_sublist.map Prod.fst).nodup map.distinct⟩

/-- Drop `key`, leaving the others in order. -/
def erase (map : OrderedMap κ α) (key : κ) : OrderedMap κ α :=
  map.filter (fun other _ => other != key)

/-- Change the value of `key` if it has one. -/
def modify (map : OrderedMap κ α) (key : κ) (change : α → α) : OrderedMap κ α :=
  match map.find? key with
  | some value => map.insert key (change value)
  | none => map

omit [DecidableEq κ] in
/-- Maps with the same entries in the same order are the same. -/
theorem ext {map other : OrderedMap κ α} (hentries : map.entries = other.entries) : map = other := by
  cases map
  cases other
  congr

omit [DecidableEq κ] in
@[simp] theorem entries_empty : (∅ : OrderedMap κ α).entries = [] := rfl

@[simp] theorem entries_insert (map : OrderedMap κ α) (key : κ) (value : α) :
    (map.insert key value).entries = setEntry key value map.entries := rfl

/-- Entries with new keys come in the order in which they are set. -/
theorem entries_foldl_insert {entries : List (κ × α)} {map : OrderedMap κ α}
    (hnodup : ((map.entries ++ entries).map Prod.fst).Nodup) :
    (entries.foldl (fun map entry => map.insert entry.1 entry.2) map).entries =
      map.entries ++ entries := by
  induction entries generalizing map with
  | nil => simp
  | cons entry rest ih =>
    have hfresh : entry.1 ∉ map.entries.map Prod.fst := fun hmem => by
      rw [List.map_append, List.nodup_append] at hnodup
      exact hnodup.2.2 entry.1 hmem entry.1 (by simp) rfl
    have hinsert : (map.insert entry.1 entry.2).entries = map.entries ++ [entry] :=
      setEntry_of_not_mem hfresh
    have hassoc : (map.entries ++ [entry]) ++ rest = map.entries ++ entry :: rest := by simp
    rw [List.foldl_cons, ih (by rwa [hinsert, hassoc]), hinsert, hassoc]

/-- What is found under a key that was set, and under any other. -/
theorem lookup_setEntry (key other : κ) (value : α) (entries : List (κ × α)) :
    (setEntry key value entries).lookup other =
      if other = key then some value else entries.lookup other := by
  induction entries with
  | nil =>
    by_cases hother : other = key
    · simp [setEntry, hother]
    · have hbeq : (other == key) = false := by simpa using hother
      simp [setEntry, List.lookup_cons, hother, hbeq]
  | cons entry rest ih =>
    obtain ⟨name, old⟩ := entry
    by_cases hkey : name = key
    · subst hkey
      by_cases hother : other = name
      · simp [setEntry, hother]
      · have hbeq : (other == name) = false := by simpa using hother
        simp [setEntry, List.lookup_cons, hother, hbeq]
    · by_cases hfound : other = name
      · have hother : ¬ other = key := fun h => hkey (hfound ▸ h)
        simp [setEntry, hkey, hfound]
      · have hbeq : (other == name) = false := by simpa using hfound
        simp [setEntry, hkey, List.lookup_cons, hbeq, ih]

/-- Setting a key changes the value of that key and of no other. -/
theorem find?_insert (map : OrderedMap κ α) (key other : κ) (value : α) :
    (map.insert key value).find? other = if other = key then some value else map.find? other :=
  lookup_setEntry key other value map.entries

@[simp] theorem find?_empty (key : κ) : (∅ : OrderedMap κ α).find? key = none := rfl

/-- The entries are what can be found. That keys are distinct is what leaves no entry hidden. -/
theorem find?_eq_some_iff {map : OrderedMap κ α} {key : κ} {value : α} :
    map.find? key = some value ↔ (key, value) ∈ map.entries := by
  unfold find?
  rw [List.lookup_eq_some_iff]
  constructor
  · rintro ⟨before, after, hentries, _⟩
    simp [hentries]
  · intro hmem
    obtain ⟨before, after, hentries⟩ := List.append_of_mem hmem
    refine ⟨before, after, hentries, fun entry hentry => ?_⟩
    have hdistinct := map.distinct
    rw [hentries, List.map_append, List.map_cons] at hdistinct
    have hdisjoint := (List.nodup_append.mp hdistinct).2.2
    simpa using (hdisjoint entry.1 (List.mem_map_of_mem hentry) key List.mem_cons_self).symm

/-- An entry is found in a filtered map if it was there and is accepted. -/
theorem find?_filter {map : OrderedMap κ α} {keep : κ → α → Bool} {key : κ} {value : α} :
    (map.filter keep).find? key = some value ↔ map.find? key = some value ∧ keep key value = true := by
  simp only [find?_eq_some_iff, filter, List.mem_filter]

/-- A key has one entry, if it has a value. -/
theorem filter_entries_of_find? {map : OrderedMap κ α} {key : κ} {value : α}
    (hfound : map.find? key = some value) :
    map.entries.filter (fun entry => entry.1 = key) = [(key, value)] := by
  obtain ⟨before, after, hentries⟩ := List.append_of_mem (find?_eq_some_iff.mp hfound)
  have hdistinct := map.distinct
  rw [hentries, List.map_append, List.map_cons, List.nodup_append, List.nodup_cons] at hdistinct
  obtain ⟨-, ⟨hafter, -⟩, hbefore⟩ := hdistinct
  have hnoneBefore : before.filter (fun entry => entry.1 = key) = [] := by
    refine List.filter_eq_nil_iff.mpr fun entry hentry => ?_
    simpa using hbefore entry.1 (List.mem_map_of_mem hentry) key List.mem_cons_self
  have hnoneAfter : after.filter (fun entry => entry.1 = key) = [] := by
    refine List.filter_eq_nil_iff.mpr fun entry hentry heq => hafter ?_
    exact List.mem_map.mpr ⟨entry, hentry, of_decide_eq_true heq⟩
  rw [hentries, List.filter_append, hnoneBefore, List.filter_cons_of_pos (by simp), hnoneAfter,
    List.nil_append]

/-- The entries of a key are its value, or there are none. -/
theorem filter_entries (map : OrderedMap κ α) (key : κ) :
    map.entries.filter (fun entry => entry.1 = key) = ((map.find? key).map (key, ·)).toList := by
  cases hfound : map.find? key with
  | some value => exact filter_entries_of_find? hfound
  | none =>
    refine List.filter_eq_nil_iff.mpr fun entry hentry heq => ?_
    obtain rfl : entry.1 = key := of_decide_eq_true heq
    cases hfound.symm.trans (find?_eq_some_iff.mpr hentry)

/-- The keys are those under which a value is found. -/
theorem mem_keys_iff {map : OrderedMap κ α} {key : κ} :
    key ∈ map.keys ↔ ∃ value, map.find? key = some value := by
  simp only [find?_eq_some_iff, keys, List.mem_map]
  constructor
  · rintro ⟨entry, hmem, rfl⟩
    exact ⟨entry.2, hmem⟩
  · rintro ⟨value, hmem⟩
    exact ⟨_, hmem, rfl⟩

/-- A map says of its keys, and of no others, that they have a value. -/
theorem contains_iff_mem_keys {map : OrderedMap κ α} {key : κ} :
    map.contains key = true ↔ key ∈ map.keys := by
  rw [mem_keys_iff, contains, Option.isSome_iff_exists]

/-- What is found does not depend on the order of the entries. -/
theorem find?_congr {map other : OrderedMap κ α} (hperm : other.entries.Perm map.entries) (key : κ) :
    other.find? key = map.find? key := by
  refine Option.ext fun value => ?_
  rw [find?_eq_some_iff, find?_eq_some_iff, hperm.mem_iff]

/-- The keys of a map in which one more was set. -/
theorem keys_insert (map : OrderedMap κ α) (key : κ) (value : α) :
    (map.insert key value).keys = if key ∈ map.keys then map.keys else map.keys ++ [key] := by
  unfold keys
  rw [entries_insert]
  induction map.entries with
  | nil => rfl
  | cons entry rest ih =>
    by_cases hkey : entry.1 = key
    · simp [setEntry, hkey]
    · simp only [setEntry, hkey, if_false, List.map_cons, ih, List.mem_cons, Ne.symm hkey, false_or]
      split
      · rfl
      · rw [List.cons_append]

/-- Keys that are set one after another come behind those that are there, each where it is first
set. -/
theorem keys_foldl_insert (entries : List (κ × α)) (map : OrderedMap κ α) :
    (entries.foldl (fun map entry => map.insert entry.1 entry.2) map).keys =
      map.keys ++ ((entries.map Prod.fst).filter (· ∉ map.keys)).eraseDups := by
  induction entries generalizing map with
  | nil => simp
  | cons entry rest ih =>
    rw [List.foldl_cons, ih, keys_insert, List.map_cons]
    by_cases hkey : entry.1 ∈ map.keys
    · rw [if_pos hkey, List.filter_cons_of_neg (by simpa using hkey)]
    · rw [if_neg hkey, List.filter_cons_of_pos (by simpa using hkey), List.eraseDups_cons,
        List.append_assoc, List.singleton_append, List.filter_filter]
      congr 3
      refine List.filter_congr fun key _ => ?_
      rw [Bool.eq_iff_iff]
      simp [and_comm]

/-- Of entries that are set one after another each key stands where it stands first. -/
theorem keys_ofList (entries : List (κ × α)) :
    (ofList entries).keys = (entries.map Prod.fst).eraseDups := by
  have hnew : (entries.map Prod.fst).filter (· ∉ (empty : OrderedMap κ α).keys) = entries.map Prod.fst :=
    List.filter_eq_self.mpr fun key _ => by simp [keys, empty]
  unfold ofList
  rw [keys_foldl_insert, hnew]
  rfl

/-- Of entries that are set one after another the last for a key is found, and behind all of them
what was there before. -/
theorem find?_foldl_insert (entries : List (κ × α)) (map : OrderedMap κ α) (key : κ) :
    (entries.foldl (fun map entry => map.insert entry.1 entry.2) map).find? key =
      (entries.reverse.lookup key).or (map.find? key) := by
  induction entries generalizing map with
  | nil => rfl
  | cons entry rest ih =>
    obtain ⟨name, value⟩ := entry
    rw [List.foldl_cons, ih, find?_insert, List.reverse_cons, List.lookup_append, Option.or_assoc]
    congr 1
    by_cases hkey : key = name
    · simp [hkey]
    · have hbeq : (key == name) = false := by simpa using hkey
      simp [List.lookup_cons, hkey, hbeq]

/-- Of a list of entries the last for a key is found. -/
theorem find?_ofList (entries : List (κ × α)) (key : κ) :
    (ofList entries).find? key = entries.reverse.lookup key := by
  unfold ofList
  rw [find?_foldl_insert]
  exact Option.or_none

/-- Of entries that are set one after another the last one for a key counts. -/
theorem find?_ofList_of_last {before after : List (κ × α)} {key : κ} {value : α}
    (hlast : key ∉ after.map Prod.fst) :
    (ofList (before ++ (key, value) :: after)).find? key = some value := by
  have hafter : after.reverse.lookup key = none := by
    rw [List.lookup_eq_none_iff]
    intro entry hentry
    refine bne_iff_ne.mpr ?_
    rintro rfl
    exact hlast (List.mem_map_of_mem (List.mem_reverse.mp hentry))
  rw [find?_ofList, List.reverse_append, List.reverse_cons, List.append_assoc, List.lookup_append,
    hafter, Option.none_or, List.singleton_append, List.lookup_cons_self]

/-- Of items that are set one after another, some of them not at all, the last one for a key counts. -/
theorem find?_ofList_filterMap {β : Type} {select : β → Option (κ × α)} {items : List β} {key : κ}
    {value : α} :
    (ofList (items.filterMap select)).find? key = some value ↔
      ∃ before item after, items = before ++ item :: after ∧ select item = some (key, value) ∧
        ∀ other ∈ after, ∀ hidden, select other ≠ some (key, hidden) := by
  constructor
  · intro hfound
    rw [find?_ofList, ← List.filterMap_reverse, List.lookup_eq_some_iff] at hfound
    obtain ⟨later, earlier, hselected, hlater⟩ := hfound
    obtain ⟨front, back, hitems, hfront, hback⟩ := List.filterMap_eq_append_iff.mp hselected
    obtain ⟨skipped, item, rest, hrest, hskipped, hitem, -⟩ := List.filterMap_eq_cons_iff.mp hback
    refine ⟨rest.reverse, item, (front ++ skipped).reverse, ?_, hitem, ?_⟩
    · rw [← List.reverse_reverse items, hitems, hrest]
      simp
    · intro other hother hidden hselect
      rcases List.mem_append.mp (List.mem_reverse.mp hother) with hmem | hmem
      · have hentry : (key, hidden) ∈ later := hfront ▸ List.mem_filterMap.mpr ⟨other, hmem, hselect⟩
        simpa using hlater _ hentry
      · rw [hskipped other hmem] at hselect
        cases hselect
  · rintro ⟨before, item, after, rfl, hitem, hafter⟩
    rw [List.filterMap_append, List.filterMap_cons_some hitem]
    refine find?_ofList_of_last fun hkey => ?_
    obtain ⟨⟨_, hidden⟩, hmem, rfl⟩ := List.mem_map.mp hkey
    obtain ⟨other, hother, hselect⟩ := List.mem_filterMap.mp hmem
    exact hafter other hother hidden hselect

/-- The entries of a map come from the list that it was made of. -/
theorem mem_entries_ofList {entries : List (κ × α)} {entry : κ × α}
    (hmem : entry ∈ (ofList entries).entries) : entry ∈ entries := by
  have hfound := find?_eq_some_iff.mpr hmem
  rw [find?_ofList, List.lookup_eq_some_iff] at hfound
  obtain ⟨before, after, hentries, -⟩ := hfound
  rw [← List.mem_reverse, hentries]
  exact List.mem_append_right _ List.mem_cons_self

/-- Entries with distinct keys are kept as they are. -/
theorem entries_ofList {entries : List (κ × α)} (hnodup : (entries.map Prod.fst).Nodup) :
    (ofList entries).entries = entries :=
  entries_foldl_insert hnodup

end OrderedMap
end TerraStack
