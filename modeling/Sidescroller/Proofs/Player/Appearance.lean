import Mathlib.Algebra.BigOperators.Group.List.Basic
import Mathlib.Data.Int.ModEq
import Mathlib.Data.List.Nodup
import Sidescroller.Player.Character

/-!
# Going through an appearance table

An index may be any word. What it shows is found by wrapping it around the table as an unsigned
number; when it is moved, it is read as a signed number first. The two readings differ by 2 ^ 64,
which is a multiple of the length of one table, that of the outfits, but not of the two others. So
a move leads as many entries on as it should as long as it stays below 2 ^ 63, and elsewhere it
falls one entry short, unless an outfit is moved. Once it has been moved an index lies in its table,
and from there all is as it should be.

* `Trait.entry`, `Trait.onward` — a table that is repeated in both directions, and moves along it;
* `Character.index_cycle` — where a move leads the index;
* `Character.resolve_cycleAll_iff` — when moves lead to the right entry;
* `Character.Overflows` — when the sum of the words is not the sum of the numbers;
* `cycling_moves_entry_shown` — what moves do, and what they do not.
-/

namespace Sidescroller

/-! ### Tables without an end -/

namespace Trait

variable {trait : Trait} {place place' : Int}

/-- No table has an entry twice. -/
theorem nodup_options (trait : Trait) : trait.options.Nodup := by
  cases trait <;> decide

theorem length_options_le (trait : Trait) : trait.options.length ≤ 5 := by
  cases trait <;> decide

/-- A remainder names an entry of the table. -/
theorem emod_length_mem (trait : Trait) (place : Int) :
    0 ≤ place % trait.options.length ∧ place % trait.options.length < trait.options.length := by
  have hpos := trait.length_options_pos
  exact ⟨Int.emod_nonneg place (by omega), Int.emod_lt_of_pos place (by omega)⟩

/-- The number of a place in the table, which is repeated in both directions. -/
def position (trait : Trait) (place : Int) : Fin trait.options.length where
  val := (place % trait.options.length).toNat
  isLt := by
    have hmem := trait.emod_length_mem place
    omega

/-- The entry at a place of the table, which is repeated in both directions. -/
def entry (trait : Trait) (place : Int) : Appearance := trait.options.get (trait.position place)

/-- **The entry that comes some places after another one**, or before it if they are less than
none. -/
def onward (trait : Trait) (appearance : Appearance) (places : Int) : Appearance :=
  trait.entry (trait.options.idxOf appearance + places)

theorem val_position (trait : Trait) (place : Int) :
    ((trait.position place).val : Int) = place % trait.options.length :=
  Int.toNat_of_nonneg (trait.emod_length_mem place).1

/-- Places show the same entry exactly if they agree up to whole tables. -/
theorem entry_eq_iff :
    trait.entry place = trait.entry place' ↔ place ≡ place' [ZMOD trait.options.length] := by
  rw [entry, entry, trait.nodup_options.get_inj_iff, Fin.ext_iff, ← Int.ofNat_inj, val_position,
    val_position, Int.ModEq]

/-- To go on from an entry is to go on from any of its places. -/
theorem onward_entry (trait : Trait) (place places : Int) :
    trait.onward (trait.entry place) places = trait.entry (place + places) := by
  have hidx : trait.options.idxOf (trait.entry place) = (trait.position place).val :=
    List.get_idxOf trait.nodup_options _
  rw [onward, hidx, entry_eq_iff, val_position]
  exact (Int.mod_modEq place _).add_right places

end Trait

/-! ### Where a move leads -/

namespace Character

variable {character : Character} {trait other : Trait} {places : Int32}

/-- The entry shown is the one at the place that the index names. -/
theorem resolve_eq_entry (character : Character) (trait : Trait) :
    character.resolve trait = trait.entry (character.index trait).toNat := by
  unfold resolve Trait.entry
  congr 1

theorem index_setIndex (character : Character) (trait : Trait) (word : UInt64) :
    (character.setIndex trait word).index trait = word := by
  cases trait <;> rfl

theorem index_setIndex_of_ne (h : other ≠ trait) (word : UInt64) :
    (character.setIndex trait word).index other = character.index other := by
  cases trait <;> cases other <;> simp_all [setIndex, index]

theorem name_setIndex (character : Character) (trait : Trait) (word : UInt64) :
    (character.setIndex trait word).name = character.name := by
  cases trait <;> rfl

theorem setIndex_comm (h : other ≠ trait) (word word' : UInt64) :
    (character.setIndex trait word).setIndex other word' =
      (character.setIndex other word').setIndex trait word := by
  cases trait <;> cases other <;> simp_all [setIndex]

/-- The place that a move leads to, if it is computed in numbers. -/
def target (character : Character) (trait : Trait) (places : Int32) : Int :=
  (character.index trait).toNat + places.toInt

/-- A word, read as a signed number. -/
theorem toInt_toInt64 (word : UInt64) : word.toInt64.toInt = (word.toNat : Int).bmod (2 ^ 64) :=
  BitVec.toInt_eq_toNat_bmod word.toBitVec

/-- From 2 ^ 63 on the signed number is less by 2 ^ 64. -/
theorem bmod_of_le {n : Int} (hle : 2 ^ 63 ≤ n) (hlt : n < 2 ^ 63 + 2 ^ 64) :
    n.bmod (2 ^ 64) = n - 2 ^ 64 := by
  calc n.bmod (2 ^ 64)
    _ = (n - (2 ^ 64 : Nat)).bmod (2 ^ 64) := (Int.sub_bmod_right n (2 ^ 64)).symm
    _ = n - 2 ^ 64 := Int.bmod_eq_of_le (by omega) (by omega)

/-- The sum of words that a move computes, as a number. -/
theorem toInt_add_places (word : UInt64) (places : Int32) :
    (word.toInt64 + places.toInt64).toInt = (word.toNat + places.toInt).bmod (2 ^ 64) := by
  rw [Int64.toInt_add, Int32.toInt_toInt64, toInt_toInt64, Int.bmod_add_bmod]

/-- **Where a move leads the index**: to the remainder of the sum, which is formed in words. -/
theorem index_cycle (character : Character) (trait : Trait) (places : Int32) :
    (((character.cycle trait places).index trait).toNat : Int) =
      (character.target trait places).bmod (2 ^ 64) % trait.options.length := by
  have hlength := trait.length_options_le
  have hmem := trait.emod_length_mem ((character.target trait places).bmod (2 ^ 64))
  unfold cycle
  dsimp only
  rw [index_setIndex, toInt_add_places, UInt64.toNat_ofNat', ← target]
  omega

/-- A moved index lies in its table. -/
theorem index_cycle_lt (character : Character) (trait : Trait) (places : Int32) :
    ((character.cycle trait places).index trait).toNat < trait.options.length := by
  have hindex := character.index_cycle trait places
  have hmem := trait.emod_length_mem ((character.target trait places).bmod (2 ^ 64))
  omega

/-! ### Where a move should lead -/

/-- Below 2 ^ 63 the sum of the words is the sum of the numbers. -/
theorem bmod_target_of_lt (h : character.target trait places < 2 ^ 63) :
    (character.target trait places).bmod (2 ^ 64) = character.target trait places := by
  have hge := places.le_toInt
  apply Int.bmod_eq_of_le
  · unfold target
    omega
  · exact h

/-- From there on it is less by 2 ^ 64. -/
theorem bmod_target_of_le (h : 2 ^ 63 ≤ character.target trait places) :
    (character.target trait places).bmod (2 ^ 64) = character.target trait places - 2 ^ 64 := by
  have hindex := (character.index trait).toNat_lt
  have hplaces := places.toInt_lt
  apply bmod_of_le h
  unfold target
  omega

/-- **Only the table of the outfits** repeats within 2 ^ 64 places without a rest. -/
theorem dvd_two_pow_iff (trait : Trait) :
    (trait.options.length : Int) ∣ 2 ^ 64 ↔ trait = .outfit := by
  cases trait <;> decide

/-- The two sums name the same entry where they are equal, and everywhere among the outfits. -/
theorem modEq_target_iff :
    (character.target trait places).bmod (2 ^ 64) ≡ character.target trait places
        [ZMOD trait.options.length] ↔
      trait = .outfit ∨ character.target trait places < 2 ^ 63 := by
  by_cases h : character.target trait places < 2 ^ 63
  · rw [bmod_target_of_lt h]
    exact iff_of_true rfl (Or.inr h)
  · rw [bmod_target_of_le (not_lt.1 h), Int.modEq_iff_dvd, sub_sub_cancel, dvd_two_pow_iff,
      or_iff_left h]

/-- The other tables are one entry short of it. -/
theorem sub_two_pow_modEq (h : trait ≠ .outfit) (place : Int) :
    place - 2 ^ 64 ≡ place - 1 [ZMOD trait.options.length] := by
  have hdvd : (trait.options.length : Int) ∣ 2 ^ 64 - 1 := by
    cases trait with
    | outfit => exact absurd rfl h
    | _ => decide
  rw [Int.modEq_iff_dvd]
  rwa [sub_sub_sub_cancel_left]

/-! ### Moves one after the other -/

/-- Moves a trait several times. -/
def cycleAll (character : Character) (trait : Trait) (moves : List Int32) : Character :=
  moves.foldl (fun character places => character.cycle trait places) character

theorem cycleAll_cons (character : Character) (trait : Trait) (places : Int32)
    (moves : List Int32) :
    character.cycleAll trait (places :: moves) =
      (character.cycle trait places).cycleAll trait moves := rfl

/-- **From an index in its table** all moves lead where they should. -/
theorem resolve_cycleAll_of_lt (h : (character.index trait).toNat < trait.options.length)
    (moves : List Int32) :
    (character.cycleAll trait moves).resolve trait =
      trait.entry ((character.index trait).toNat + (moves.map Int32.toInt).sum) := by
  induction moves generalizing character with
  | nil => exact (character.resolve_eq_entry trait).trans (by simp)
  | cons places moves ih =>
    have hlength := trait.length_options_le
    have hplaces := places.toInt_lt
    have hlt : character.target trait places < 2 ^ 63 := by
      unfold target
      omega
    -- the first move leaves the index in its table
    rw [cycleAll_cons, ih (character.index_cycle_lt trait places), index_cycle,
      bmod_target_of_lt hlt, List.map_cons, List.sum_cons, ← add_assoc, Trait.entry_eq_iff]
    exact (Int.mod_modEq _ _).add_right _

/-- Wherever the first move leads, the others go on from there. -/
theorem resolve_cycleAll_cons (character : Character) (trait : Trait) (places : Int32)
    (moves : List Int32) :
    (character.cycleAll trait (places :: moves)).resolve trait =
      trait.entry ((character.target trait places).bmod (2 ^ 64) +
        (moves.map Int32.toInt).sum) := by
  rw [cycleAll_cons, resolve_cycleAll_of_lt (character.index_cycle_lt trait places), index_cycle,
    Trait.entry_eq_iff]
  exact (Int.mod_modEq _ _).add_right _

/-- **Moves lead to the right entry** exactly if the first one does. -/
theorem resolve_cycleAll_iff (character : Character) (trait : Trait) (places : Int32)
    (moves : List Int32) :
    (character.cycleAll trait (places :: moves)).resolve trait =
        trait.onward (character.resolve trait) ((places :: moves).map Int32.toInt).sum ↔
      trait = .outfit ∨ character.target trait places < 2 ^ 63 := by
  rw [resolve_cycleAll_cons, resolve_eq_entry, Trait.onward_entry, List.map_cons, List.sum_cons,
    ← add_assoc, Trait.entry_eq_iff, ← modEq_target_iff]
  exact ⟨Int.ModEq.add_right_cancel' _, fun h => h.add_right _⟩

/-- A move that goes wrong falls one entry short. -/
theorem resolve_cycle (character : Character) (trait : Trait) (places : Int32) :
    (character.cycle trait places).resolve trait =
      trait.onward (character.resolve trait)
        (if trait = .outfit ∨ character.target trait places < 2 ^ 63 then places.toInt
          else places.toInt - 1) := by
  split_ifs with h
  · have hmove := (character.resolve_cycleAll_iff trait places []).2 h
    rwa [List.map_singleton, List.sum_singleton] at hmove
  · rw [not_or, not_lt] at h
    have hmove := character.resolve_cycleAll_cons trait places []
    rw [bmod_target_of_le h.2, List.map_nil, List.sum_nil, add_zero] at hmove
    rw [resolve_eq_entry character, Trait.onward_entry, ← add_sub_assoc, ← target]
    exact hmove.trans (Trait.entry_eq_iff.2 (sub_two_pow_modEq h.1 _))

/-! ### Overflow -/

/-- **The sum of a move overflows**: the sum of the index, read as a signed number, and the places
is not the number of a signed word. -/
def Overflows (character : Character) (trait : Trait) (places : Int32) : Prop :=
  let sum := (character.index trait).toInt64.toInt + places.toInt
  ¬ (-2 ^ 63 ≤ sum ∧ sum < 2 ^ 63)

/-- It does so if the move goes across 2 ^ 63, in either direction. -/
theorem overflows_iff :
    character.Overflows trait places ↔
      ¬ ((character.index trait).toNat < 2 ^ 63 ↔ character.target trait places < 2 ^ 63) := by
  have hindex := (character.index trait).toNat_lt
  have hge := places.le_toInt
  have hlt := places.toInt_lt
  unfold Overflows target
  rw [toInt_toInt64]
  by_cases h : (character.index trait).toNat < 2 ^ 63
  · rw [Int.bmod_eq_of_le (by omega) (by omega)]
    omega
  · rw [bmod_of_le (by omega) (by omega)]
    omega

/-- **Going through an appearance table.** A move leaves the index of its trait in the table, and
the name and the other indices alone. Among the outfits the entry shown moves on by the number of
places asked for. Among the hair styles and the heritages it does so exactly if the index and the
number of places add up to less than 2 ^ 63, and otherwise it moves on by one place less. The sum of
the words overflows exactly if the move goes across 2 ^ 63. Of moves made one after the other only
the first one can go wrong: together they move on by the sum of their places exactly if it does not.
Moves of different traits can be made in either order. -/
theorem cycling_moves_entry_shown (character : Character) (trait : Trait) :
    (∀ places : Int32,
      let moved := character.cycle trait places
      (moved.index trait).toNat < trait.options.length ∧ moved.name = character.name ∧
      (∀ other, other ≠ trait → moved.index other = character.index other) ∧
      moved.resolve trait =
        trait.onward (character.resolve trait)
          (if trait = .outfit ∨ character.target trait places < 2 ^ 63 then places.toInt
            else places.toInt - 1) ∧
      (character.Overflows trait places ↔
        ¬ ((character.index trait).toNat < 2 ^ 63 ↔ character.target trait places < 2 ^ 63))) ∧
    (∀ (places : Int32) (moves : List Int32),
      (character.cycleAll trait (places :: moves)).resolve trait =
          trait.onward (character.resolve trait) ((places :: moves).map Int32.toInt).sum ↔
        trait = .outfit ∨ character.target trait places < 2 ^ 63) ∧
    ∀ (other : Trait) (places places' : Int32), other ≠ trait →
      (character.cycle trait places).cycle other places' =
        (character.cycle other places').cycle trait places := by
  refine ⟨?_, character.resolve_cycleAll_iff trait, ?_⟩
  · intro places moved
    exact ⟨character.index_cycle_lt trait places, name_setIndex character trait _,
      fun other hne => index_setIndex_of_ne hne _, character.resolve_cycle trait places,
      overflows_iff⟩
  · intro other places places' hne
    -- neither move looks at the index of the other trait
    have hother : ∀ word, (character.setIndex trait word).index other = character.index other :=
      index_setIndex_of_ne hne
    have htrait : ∀ word, (character.setIndex other word).index trait = character.index trait :=
      index_setIndex_of_ne (Ne.symm hne)
    unfold cycle
    simp only [hother, htrait]
    exact setIndex_comm hne _ _

/-- A hair style far beyond the table, and one just below 2 ^ 63, which the move overflows. -/
theorem cycling_moves_entry_shown_drifted :
    let drifted := Character.fresh.withIndices 9223372036854775807 18446744073709551615 6
    (drifted.cycle .hair 1).resolve .hair = drifted.resolve .hair ∧
      drifted.Overflows .hair 1 ∧
      Trait.race ≠ .hair ∧ (drifted.cycle .hair 1).index .race = 18446744073709551615 ∧
      (drifted.cycle .hair 1).cycle .race (-1) = (drifted.cycle .race (-1)).cycle .hair 1 := by
  intro drifted
  have hne : Trait.race ≠ .hair := by decide
  obtain ⟨hmove, -, hcomm⟩ := cycling_moves_entry_shown drifted .hair
  obtain ⟨-, -, hothers, hshown, hoverflows⟩ := hmove 1
  refine ⟨hshown.trans (by decide), hoverflows.2 (by decide), hne, hothers .race hne, ?_⟩
  exact hcomm .race 1 (-1) hne

/-- **A move that shows nothing new.** The fourth hair style is shown for an index of 2 ^ 63. It is
still shown when the index has been moved on by one place, and not the fifth. -/
theorem cycle_stays_on_entry :
    let drifted := Character.fresh.withIndices 9223372036854775808 0 0
    (drifted.cycle .hair 1).resolve .hair = drifted.resolve .hair ∧
      (drifted.cycle .hair 1).resolve .hair ≠ Trait.hair.onward (drifted.resolve .hair) 1 := by
  decide

end Character

end Sidescroller
