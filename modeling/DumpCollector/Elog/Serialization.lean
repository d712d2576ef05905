import DumpCollector.Elog.Watch
import DumpCollector.Lib.LittleEndian

namespace DumpCollector.Elog.Serialization

open Std Lib.LittleEndian Watch

structure Ids where
  list : ElogList
  fits : ∀ id ∈ list, id < 2 ^ 32

structure Store where
  file : Option (List UInt8)
  list : ElogList

section Archive

/-- The binary archive of a set: the number of its elements in eight bytes, and every
element in four. -/
def save (list : ElogList) : List UInt8 := toBytes 8 list.size ++ list.toList.flatMap (toBytes 4)

/-- A read of the next bytes, which throws where there are not as many. -/
def loadBinary (size : Nat) (is : List UInt8) : Option (Nat × List UInt8) :=
  if size ≤ is.length then some (ofBytes (is.take size), is.drop size) else none

def loadElements : Nat → List UInt8 → ElogList → Bool × ElogList
  | 0, _, list => (true, list)
  | size + 1, is, list =>
      match loadBinary 4 is with
      | none => (false, list)
      | some (key, is) => loadElements size is (list.insert key)

def load (is : List UInt8) (list : ElogList) : Bool × ElogList :=
  match loadBinary 8 is with
  | none => (false, list)
  | some (size, is) => loadElements size is ∅

end Archive

def serialize (list : ElogList) (s : Store) : Store := { s with file := some (save list) }

def deserialize (s : Store) : Bool × Store :=
  match s.file with
  | none => (false, s)
  | some is =>
      match load is s.list with
      | (true, list) => (true, { s with list := list })
      -- the exception is caught, and the file removed
      | (false, list) => (false, ⟨none, list⟩)

section Prefixes

variable {keys : List Nat} {is front back : List UInt8} {list : ElogList}

theorem loadBinary_append {size n : Nat} (h : n < 256 ^ size) :
    loadBinary size (toBytes size n ++ back) = some (n, back) := by
  have hlength : size ≤ (toBytes size n ++ back).length := by
    rw [List.length_append, length_toBytes]
    exact Nat.le_add_right size back.length
  rw [loadBinary, if_pos hlength, List.take_left' (length_toBytes size n), List.drop_left' (length_toBytes size n),
    ofBytes_toBytes h]

theorem loadBinary_short {size : Nat} (h : is.length < size) : loadBinary size is = none :=
  if_neg (Nat.not_le_of_lt h)

theorem split_front (h : is <+: front ++ back) (hlength : front.length ≤ is.length) :
    ∃ rest, is = front ++ rest ∧ rest <+: back := by
  obtain ⟨rest, rfl⟩ := List.prefix_of_prefix_length_le (List.prefix_append front back) h hlength
  exact ⟨rest, rfl, (List.prefix_append_right_inj front).mp h⟩

theorem loadElements_cut (hkeys : ∀ key ∈ keys, key < 2 ^ 32) (h : is <+: keys.flatMap (toBytes 4))
    (list : ElogList) :
    loadElements keys.length is list =
      (decide (4 * keys.length ≤ is.length), (keys.take (is.length / 4)).foldl (fun l key => l.insert key) list) := by
  induction keys generalizing is list with
  | nil =>
      obtain rfl := List.prefix_nil.mp h
      rfl
  | cons key keys ih =>
      rw [List.flatMap_cons] at h
      by_cases hlength : 4 ≤ is.length
      · obtain ⟨rest, rfl, hrest⟩ := split_front h (by rw [length_toBytes]; exact hlength)
        have hkey : key < 256 ^ 4 := hkeys key List.mem_cons_self
        have hquotient : (toBytes 4 key ++ rest).length / 4 = rest.length / 4 + 1 := by
          rw [List.length_append, length_toBytes]
          omega
        have henough : 4 * (key :: keys).length ≤ (toBytes 4 key ++ rest).length ↔ 4 * keys.length ≤ rest.length := by
          rw [List.length_append, length_toBytes, List.length_cons]
          omega
        rw [List.length_cons, loadElements, loadBinary_append hkey]
        dsimp only
        rw [ih (fun k hk => hkeys k (List.mem_cons_of_mem key hk)) hrest, hquotient, List.take_succ_cons,
          List.foldl_cons, ← List.length_cons (a := key), decide_eq_decide.mpr henough]
      · have hshort : ¬4 * (key :: keys).length ≤ is.length := by
          rw [List.length_cons]
          omega
        rw [List.length_cons, loadElements, loadBinary_short (Nat.lt_of_not_le hlength), ← List.length_cons (a := key),
          decide_eq_false hshort, Nat.div_eq_of_lt (Nat.lt_of_not_le hlength)]
        rfl

end Prefixes

section Truncation

variable {is : List UInt8}

def firstIds (n : Nat) (E : Ids) : ElogList := .ofList (E.list.toList.take n)

theorem size_lt (E : Ids) : E.list.size < 256 ^ 8 := by
  have hnodup : E.list.toList.Nodup :=
    ExtTreeSet.distinct_toList.imp fun hne heq => hne (Std.compare_eq_iff_eq.mpr heq)
  have hsub : E.list.toList ⊆ List.range (2 ^ 32) := fun id hid =>
    List.mem_range.mpr (E.fits id (ExtTreeSet.mem_toList.mp hid))
  have hle := (List.subperm_of_subset hnodup hsub).length_le
  rw [ExtTreeSet.length_toList, List.length_range] at hle
  exact Nat.lt_of_le_of_lt hle (by decide)

theorem length_save (list : ElogList) : (save list).length = 8 + 4 * list.size := by
  have helements : ∀ keys : List Nat, (keys.flatMap (toBytes 4)).length = 4 * keys.length := by
    intro keys
    induction keys with
    | nil => rfl
    | cons key keys ih =>
        rw [List.flatMap_cons, List.length_append, length_toBytes, ih, List.length_cons, Nat.mul_succ, Nat.add_comm]
  rw [save, List.length_append, length_toBytes, helements, ExtTreeSet.length_toList]

theorem load_short (h : is.length < 8) (L : ElogList) : load is L = (false, L) := by
  rw [load, loadBinary_short h]

/-- Once the number of elements is read, the old list is lost, and the elements of the
prefix take its place. -/
theorem load_cut {E : Ids} (h : is <+: save E.list) (hcount : 8 ≤ is.length) (L : ElogList) :
    load is L = (decide ((save E.list).length ≤ is.length), firstIds ((is.length - 8) / 4) E) := by
  obtain ⟨rest, rfl, hrest⟩ := split_front h (by rw [length_toBytes]; exact hcount)
  have hlength : (toBytes 8 E.list.size ++ rest).length - 8 = rest.length := by
    rw [List.length_append, length_toBytes, Nat.add_sub_cancel_left]
  have henough : (save E.list).length ≤ (toBytes 8 E.list.size ++ rest).length ↔ 4 * E.list.size ≤ rest.length := by
    rw [length_save, List.length_append, length_toBytes]
    omega
  have hkeys : ∀ key ∈ E.list.toList, key < 2 ^ 32 := fun key hkey => E.fits key (ExtTreeSet.mem_toList.mp hkey)
  have helements := loadElements_cut hkeys hrest ∅
  rw [ExtTreeSet.length_toList] at helements
  rw [load, loadBinary_append (size_lt E)]
  dsimp only
  rw [helements, hlength, decide_eq_decide.mpr henough, firstIds, ExtTreeSet.ofList_eq_foldl]

theorem firstIds_all {E : Ids} {n : Nat} (h : E.list.size ≤ n) : firstIds n E = E.list := by
  apply ExtTreeSet.ext_mem
  intro id
  rw [firstIds, List.take_of_length_le (by rw [ExtTreeSet.length_toList]; exact h), ExtTreeSet.mem_ofList,
    List.contains_iff_mem, ExtTreeSet.mem_toList]

theorem deserialize_serialize (E : Ids) (s : Store) :
    deserialize (serialize E.list s) = (true, ⟨some (save E.list), E.list⟩) := by
  have hlength := length_save E.list
  have hload := load_cut (List.prefix_refl (save E.list)) (by omega) s.list
  rw [firstIds_all (by omega), decide_eq_true (Nat.le_refl _)] at hload
  rw [deserialize, serialize]
  dsimp only
  rw [hload]

theorem deserialize_truncated {E : Ids} (h : is <+: save E.list) (hproper : is ≠ save E.list) (L : ElogList) :
    deserialize ⟨some is, L⟩ = (false, ⟨none, if is.length < 8 then L else firstIds ((is.length - 8) / 4) E⟩) := by
  rw [deserialize]
  dsimp only
  by_cases hcount : is.length < 8
  · rw [load_short hcount, if_pos hcount]
  · have hshorter : ¬(save E.list).length ≤ is.length := fun hle =>
      hproper (h.eq_of_length (Nat.le_antisymm h.length_le hle))
    rw [load_cut h (Nat.le_of_not_lt hcount), decide_eq_false hshorter, if_neg hcount]

/-- A whole file gives the list back. A truncated file is refused and removed, but the list
is kept only where the number of elements is cut off, or where it has just those elements
that are left in the file. -/
theorem deserialize_keeps_list_iff (E : Ids) (s : Store) :
    deserialize (serialize E.list s) = (true, ⟨some (save E.list), E.list⟩) ∧
      ∀ is, is <+: save E.list → is ≠ save E.list → ∀ L,
        (deserialize ⟨some is, L⟩ = (false, ⟨none, L⟩) ↔
          is.length < 8 ∨ L = firstIds ((is.length - 8) / 4) E) := by
  refine ⟨deserialize_serialize E s, fun is h hproper L => ?_⟩
  rw [deserialize_truncated h hproper]
  by_cases hcount : is.length < 8
  · rw [if_pos hcount]
    exact ⟨fun _ => .inl hcount, fun _ => rfl⟩
  · rw [if_neg hcount]
    constructor
    · intro heq
      exact .inr (Store.mk.inj (Prod.mk.inj heq).2).2.symm
    · rintro (hshort | rfl)
      · exact absurd hshort hcount
      · rfl

def twoIds : Ids where
  list := ((∅ : ElogList).insert 1).insert 2
  fits id hid := by
    rw [ExtTreeSet.mem_insert, ExtTreeSet.mem_insert, Std.compare_eq_iff_eq, Std.compare_eq_iff_eq] at hid
    rcases hid with rfl | rfl | hid
    · decide
    · decide
    · exact absurd hid ExtTreeSet.not_mem_empty

/-- The file is cut off after the first of two ids. -/
theorem truncated_file_fills_list :
    deserialize ⟨some ((save twoIds.list).take 12), ∅⟩ = (false, ⟨none, (∅ : ElogList).insert 1⟩) ∧
    ¬∀ (E : Ids) (is : List UInt8) (L : ElogList), is <+: save E.list → is ≠ save E.list →
      deserialize ⟨some is, L⟩ = (false, ⟨none, L⟩) := by
  have hfilled : deserialize ⟨some ((save twoIds.list).take 12), ∅⟩ = (false, ⟨none, (∅ : ElogList).insert 1⟩) := rfl
  refine ⟨hfilled, fun h => ?_⟩
  have hkept := h twoIds _ ∅ (List.take_prefix 12 _) (by decide +kernel)
  rw [hfilled] at hkept
  have hempty : (∅ : ElogList).insert 1 = ∅ := (Store.mk.inj (Prod.mk.inj hkept).2).2
  exact ExtTreeSet.not_mem_empty (hempty ▸ ExtTreeSet.mem_insert_self)

end Truncation

end DumpCollector.Elog.Serialization
