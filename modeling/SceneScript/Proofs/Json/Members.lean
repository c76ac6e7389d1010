import SceneScript.Json.Value

/-!
The members of an object by their keys. What is said here does not depend on their order.
-/
namespace SceneScript.Json

mutual

/-- No object has a key twice, at whatever depth it stands. -/
def KeysDistinct : Json → Prop
  | .array vs => ItemsDistinct vs
  | .object ms => (ms.map Prod.fst).Nodup ∧ MembersDistinct ms
  | _ => True

def ItemsDistinct : List Json → Prop
  | [] => True
  | v :: vs => KeysDistinct v ∧ ItemsDistinct vs

def MembersDistinct : List (String × Json) → Prop
  | [] => True
  | (_, v) :: ms => KeysDistinct v ∧ MembersDistinct ms

end

theorem itemsDistinct_iff {vs : List Json} : ItemsDistinct vs ↔ ∀ v ∈ vs, v.KeysDistinct := by
  induction vs with
  | nil => simp [ItemsDistinct]
  | cons v vs ih => simp [ItemsDistinct, ih]

/-- The key occurs once, with this value. -/
def Sole (ms : List (String × Json)) (key : String) (v : Json) : Prop :=
  ms.filter (fun m => m.1 = key) = [(key, v)]

def Lacks (ms : List (String × Json)) (key : String) : Prop := ∀ m ∈ ms, m.1 ≠ key

theorem lacks_iff_filter {ms : List (String × Json)} {key : String} :
    Lacks ms key ↔ ms.filter (fun m => m.1 = key) = [] := by
  simp [Lacks, List.filter_eq_nil_iff]

theorem lacks_snoc_iff {ms : List (String × Json)} {m : String × Json} {key : String} :
    Lacks (ms ++ [m]) key ↔ Lacks ms key ∧ m.1 ≠ key := by
  simp [Lacks, or_imp, forall_and]

/-- A key that occurs once at the end has occurred before or is the key of the last member, and not
both. -/
theorem sole_snoc_iff {ms : List (String × Json)} {m : String × Json} {key : String} {v : Json} :
    Sole (ms ++ [m]) key v ↔
      (Sole ms key v ∧ m.1 ≠ key) ∨ (Lacks ms key ∧ m = (key, v)) := by
  rw [lacks_iff_filter, Sole, Sole, List.filter_append]
  by_cases hm : m.1 = key
  · have hlast : [m].filter (fun m => m.1 = key) = [m] := by simp [hm]
    rw [hlast]
    simp [List.append_eq_singleton_iff, hm]
  · have hlast : [m].filter (fun m => m.1 = key) = [] := by simp [hm]
    rw [hlast]
    have hne : m ≠ (key, v) := by
      intro h
      subst h
      exact hm rfl
    simp [hm, hne]

/-- A key that occurs once has one value. -/
theorem Sole.unique {ms : List (String × Json)} {key : String} {v w : Json} (hv : Sole ms key v)
    (hw : Sole ms key w) : v = w := by
  have heq : [(key, v)] = [(key, w)] := hv.symm.trans hw
  simpa using heq

theorem Sole.not_lacks {ms : List (String × Json)} {key : String} {v : Json}
    (hv : Sole ms key v) : ¬ Lacks ms key := by
  rw [lacks_iff_filter, hv]
  simp

theorem Lacks.filter_ne {ms : List (String × Json)} {key : String} (h : Lacks ms key) :
    (ms.filter fun m => m.1 ≠ key) = ms :=
  List.filter_eq_self.mpr fun m hm => by simpa using h m hm

/-- A key that occurs once can be told apart from the other members. -/
theorem Sole.perm {ms : List (String × Json)} {key : String} {v : Json} (h : Sole ms key v) :
    ms.Perm ((key, v) :: ms.filter fun m => m.1 ≠ key) := by
  have hparts := (List.filter_append_perm (fun m => decide (m.1 = key)) ms).symm
  rw [h] at hparts
  simpa using hparts

theorem sole_cons_of_lacks {ms : List (String × Json)} {key : String} (v : Json)
    (h : Lacks ms key) : Sole ((key, v) :: ms) key v := by
  simp [Sole, lacks_iff_filter.mp h]

theorem sole_cons_of_ne {ms : List (String × Json)} {m : String × Json} {key : String} {v : Json}
    (h : m.1 ≠ key) : Sole (m :: ms) key v ↔ Sole ms key v := by
  simp [Sole, h]

theorem lacks_cons_iff {ms : List (String × Json)} {m : String × Json} {key : String} :
    Lacks (m :: ms) key ↔ m.1 ≠ key ∧ Lacks ms key := by
  simp [Lacks]

/-- Whether a key occurs once does not depend on the order of the members. -/
theorem Sole.of_perm {ms ns : List (String × Json)} {key : String} {v : Json} (h : Sole ms key v)
    (hperm : ms.Perm ns) : Sole ns key v := by
  have hfilter := hperm.filter fun m => decide (m.1 = key)
  rw [h] at hfilter
  exact (List.singleton_perm.mp hfilter).symm

theorem sole_filter_iff {ms : List (String × Json)} {key other : String} {v : Json}
    (hne : key ≠ other) : Sole (ms.filter fun m => m.1 ≠ other) key v ↔ Sole ms key v := by
  have heq : (ms.filter fun m => m.1 ≠ other).filter (fun m => m.1 = key) =
      ms.filter fun m => m.1 = key := by
    rw [List.filter_filter]
    congr 1
    funext m
    by_cases hm : m.1 = key
    · simp [hm, hne]
    · simp [hm]
  rw [Sole, Sole, heq]

/-- Members are these up to order when each key occurs once, with its value, and no other key
occurs. -/
theorem perm_iff_sole {ms ps : List (String × Json)} (hkeys : (ps.map Prod.fst).Nodup) :
    ms.Perm ps ↔ (∀ p ∈ ps, Sole ms p.1 p.2) ∧ ∀ m ∈ ms, m.1 ∈ ps.map Prod.fst := by
  induction ps generalizing ms with
  | nil => simp [List.eq_nil_iff_forall_not_mem]
  | cons p ps ih =>
    obtain ⟨hp, hps⟩ := List.nodup_cons.mp hkeys
    have hlacks : Lacks ps p.1 := fun m hm heq => hp (heq ▸ List.mem_map_of_mem hm)
    have hne : ∀ q ∈ ps, q.1 ≠ p.1 := hlacks
    constructor
    · intro hperm
      refine ⟨?_, fun m hm => List.mem_map_of_mem (hperm.mem_iff.mp hm)⟩
      intro q hq
      rcases List.mem_cons.mp hq with rfl | hq
      · exact (sole_cons_of_lacks q.2 hlacks).of_perm hperm.symm
      · have hwhole : (p :: ps).Perm ms := hperm.symm
        have hself := ((ih hps).mp (List.Perm.refl ps)).1 q hq
        exact ((sole_cons_of_ne (hne q hq).symm).mpr hself).of_perm hwhole
    · intro h
      obtain ⟨hsole, hknown⟩ := h
      have hhead := hsole p (List.mem_cons_self ..)
      refine hhead.perm.trans (List.Perm.cons p ((ih hps).mpr ⟨?_, ?_⟩))
      · intro q hq
        exact (sole_filter_iff (hne q hq)).mpr (hsole q (List.mem_cons_of_mem p hq))
      · intro m hm
        obtain ⟨hm, hkey⟩ := List.mem_filter.mp hm
        have hcases := hknown m hm
        rw [List.map_cons] at hcases
        rcases List.mem_cons.mp hcases with heq | hmem
        · exact absurd heq (by simpa using hkey)
        · exact hmem

end SceneScript.Json
