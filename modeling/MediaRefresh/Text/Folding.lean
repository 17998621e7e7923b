/-!
# Text: comparison that ignores ASCII case

Names of providers, keys of external ids and extensions are compared without
regard to the case of the 26 Latin letters; every other character, accented
letters included, counts as it stands.  `fold` is the canonical spelling and
`same` compares through it, so `same` is an equivalence by construction.
-/

set_option autoImplicit false

namespace MediaRefresh.Text

/-- The spelling with the letters `A` to `Z` made small. -/
def fold (s : String) : String := String.ofList (s.toList.map Char.toLower)

/-- Equality that ignores ASCII case. -/
def same (a b : String) : Bool := fold a == fold b

@[simp] theorem same_iff {a b : String} : same a b = true ↔ fold a = fold b := by
  simp [same]

theorem same_refl (a : String) : same a a = true := by simp

theorem same_comm (a b : String) : same a b = same b a := BEq.comm

theorem toLower_toLower (c : Char) : c.toLower.toLower = c.toLower := by
  have keep (c : Char) (h : ¬(c.val ≥ 'A'.val ∧ c.val ≤ 'Z'.val)) : c.toLower = c := by
    unfold Char.toLower; rw [dif_neg h]
  by_cases h : c.val ≥ 'A'.val ∧ c.val ≤ 'Z'.val
  · apply keep
    have hv : c.toLower.val = c.val + 32 := by unfold Char.toLower; rw [dif_pos h]; rfl
    have h1 : 65 ≤ c.val.toNat := UInt32.le_iff_toNat_le.mp h.1
    have h2 : c.val.toNat ≤ 90 := UInt32.le_iff_toNat_le.mp h.2
    have hn : (c.val + 32).toNat = c.val.toNat + 32 := by
      rw [UInt32.toNat_add]; show (c.val.toNat + 32) % 4294967296 = _; omega
    rw [hv]
    rintro ⟨_, h4⟩
    have h4 : (c.val + 32).toNat ≤ 90 := UInt32.le_iff_toNat_le.mp h4
    omega
  · rw [keep c h, keep c h]

/-- Folding twice is folding once. -/
@[simp] theorem fold_fold (s : String) : fold (fold s) = fold s := by
  apply String.toList_inj.mp
  simp only [fold, String.toList_ofList, List.map_map]
  exact List.map_congr_left fun c _ => toLower_toLower c

/-- Whether a list of names holds `name` in some case. -/
def listed (names : List String) (name : String) : Bool := names.any (same · name)

end MediaRefresh.Text
