import Mathlib.Algebra.BigOperators.Group.List.Basic
import Mathlib.Algebra.Ring.Int.Defs
import Tabletop.Proofs.Reading

/-!
# The net of the steps and the sum of the steps

The net is held at the length of the chain after every step, not once at the end. What is cut off
on the way is lost, so steps that turn back after the net was held need not come to their sum, and
then the order in which they are written matters. The statements here say exactly when it does: for
the net, for the die that is thrown, and for all orders of the same steps.
-/
namespace Tabletop

namespace Step

/-- The greatest net downwards. -/
def least : Step := ⟨-Chain.maxSteps, by decide, by decide⟩

/-- The greatest net upwards. -/
def greatest : Step := ⟨Chain.maxSteps, by decide, by decide⟩

theorem val_least : least.val = -(Chain.maxSteps : Int) := rfl

theorem val_greatest : greatest.val = Chain.maxSteps := rfl

theorem val_clamp (n : Int) : (clamp n).val = max least.val (min n greatest.val) := rfl

theorem within (net : Step) : least.val ≤ net.val ∧ net.val ≤ greatest.val :=
  ⟨net.neg_le, net.le_max⟩

theorem takeAll_cons (net : Step) (move : Int) (moves : List Int) :
    net.takeAll (move :: moves) = (clamp (net.val + move)).takeAll moves := rfl

theorem takeAll_append (net : Step) (first second : List Int) :
    net.takeAll (first ++ second) = (net.takeAll first).takeAll second :=
  List.foldl_append

/-- A higher start ends no lower. -/
theorem takeAll_mono {a b : Step} (h : a.val ≤ b.val) (moves : List Int) :
    (a.takeAll moves).val ≤ (b.takeAll moves).val := by
  induction moves generalizing a b with
  | nil => exact h
  | cons move moves ih =>
    refine ih ?_
    rw [val_clamp, val_clamp]
    omega

/-! ## From every start -/

/-- The least net at which the steps can end. -/
def floor (moves : List Int) : Int := (least.takeAll moves).val

/-- The greatest net at which the steps can end. -/
def ceiling (moves : List Int) : Int := (greatest.takeAll moves).val

theorem least_le_floor (moves : List Int) : least.val ≤ floor moves := (least.takeAll moves).neg_le

theorem ceiling_le_greatest (moves : List Int) : ceiling moves ≤ greatest.val :=
  (greatest.takeAll moves).le_max

theorem floor_le_ceiling (moves : List Int) : floor moves ≤ ceiling moves :=
  takeAll_mono (by decide : least.val ≤ greatest.val) moves

/-! A value cut to the ends that two other values have when they are cut. -/

private theorem clip_within {lo hi a x b : Int} (hle : lo ≤ hi) (ha : a ≤ x) (hb : x ≤ b) :
    max lo (min x hi) = max (max lo (min a hi)) (min x (max lo (min b hi))) := by
  omega

private theorem clip_above {lo hi a x b : Int} (hle : lo ≤ hi) (hb : hi = max lo (min b hi))
    (hx : b ≤ x) : max lo (min b hi) = max (max lo (min a hi)) (min x (max lo (min b hi))) := by
  rw [← hb]
  omega

private theorem clip_below {lo hi a x b : Int} (hle : lo ≤ hi) (ha : lo = max lo (min a hi))
    (hx : x ≤ a) : max lo (min a hi) = max (max lo (min a hi)) (min x (max lo (min b hi))) := by
  rw [← ha]
  omega

/-- Steps add their sum to any start, except that they end between their own floor and ceiling. -/
theorem val_takeAll (net : Step) (moves : List Int) :
    (net.takeAll moves).val = max (floor moves) (min (net.val + moves.sum) (ceiling moves)) := by
  induction moves generalizing net with
  | nil =>
    have hnet := net.within
    show net.val = max least.val (min (net.val + 0) greatest.val)
    omega
  | cons move moves ih =>
    have hfloor : floor (move :: moves) = _ := ih (clamp (least.val + move))
    have hceiling : ceiling (move :: moves) = _ := ih (clamp (greatest.val + move))
    have hbelow : floor moves = _ := ih least
    have habove : ceiling moves = _ := ih greatest
    have hle := floor_le_ceiling moves
    have hnet := net.within
    have hlo : (clamp (least.val + move)).val ≤ (clamp (net.val + move)).val := by
      rw [val_clamp, val_clamp]
      omega
    have hhi : (clamp (net.val + move)).val ≤ (clamp (greatest.val + move)).val := by
      rw [val_clamp, val_clamp]
      omega
    rw [takeAll_cons, ih, hfloor, hceiling, List.sum_cons, ← Int.add_assoc]
    by_cases htop : greatest.val < net.val + move
    · have hx : (clamp (net.val + move)).val = greatest.val := by rw [val_clamp]; omega
      have hb : (clamp (greatest.val + move)).val = greatest.val := by rw [val_clamp]; omega
      rw [hx, hb]
      exact clip_above hle habove (by omega)
    · by_cases hbottom : net.val + move < least.val
      · have hx : (clamp (net.val + move)).val = least.val := by rw [val_clamp]; omega
        have ha : (clamp (least.val + move)).val = least.val := by rw [val_clamp]; omega
        rw [hx, ha]
        exact clip_below hle hbelow (by omega)
      · have hx : (clamp (net.val + move)).val = net.val + move := by rw [val_clamp]; omega
        rw [hx] at hlo hhi ⊢
        exact clip_within hle (by omega) (by omega)

/-- The sum is a net at which the steps can end, or it lies beyond a limit that they can reach. -/
def Settles (moves : List Int) : Prop :=
  (floor moves ≤ moves.sum ∨ floor moves = least.val) ∧
    (moves.sum ≤ ceiling moves ∨ ceiling moves = greatest.val)

instance (moves : List Int) : Decidable (Settles moves) :=
  inferInstanceAs (Decidable ((_ ∨ _) ∧ (_ ∨ _)))

theorem takeAll_eq_clamp_sum_iff (moves : List Int) :
    zero.takeAll moves = clamp moves.sum ↔ Settles moves := by
  have hval := val_takeAll zero moves
  have hle := floor_le_ceiling moves
  have hbottom := least_le_floor moves
  have htop := ceiling_le_greatest moves
  have hzero : zero.val = 0 := rfl
  have heq : zero.takeAll moves = clamp moves.sum ↔
      (zero.takeAll moves).val = max least.val (min moves.sum greatest.val) := by
    rw [← val_clamp]
    exact ⟨congrArg val, ext_val⟩
  rw [heq, hval, hzero]
  unfold Settles
  omega

/-! ## In every order -/

/-- How far the steps go upwards in all. -/
def rise (moves : List Int) : Int := (moves.map fun move => max move 0).sum

/-- How far the steps go downwards in all. -/
def fall (moves : List Int) : Int := (moves.map fun move => max (-move) 0).sum

theorem rise_cons (move : Int) (moves : List Int) : rise (move :: moves) = max move 0 + rise moves :=
  List.sum_cons

theorem fall_cons (move : Int) (moves : List Int) : fall (move :: moves) = max (-move) 0 + fall moves :=
  List.sum_cons

theorem rise_nonneg (moves : List Int) : 0 ≤ rise moves := by
  induction moves with
  | nil => exact Int.le_refl 0
  | cons move moves ih => rw [rise_cons]; omega

theorem fall_nonneg (moves : List Int) : 0 ≤ fall moves := by
  induction moves with
  | nil => exact Int.le_refl 0
  | cons move moves ih => rw [fall_cons]; omega

theorem rise_append (first second : List Int) : rise (first ++ second) = rise first + rise second := by
  rw [rise, List.map_append, List.sum_append]
  rfl

theorem fall_append (first second : List Int) : fall (first ++ second) = fall first + fall second := by
  rw [fall, List.map_append, List.sum_append]
  rfl

theorem rise_perm {first second : List Int} (h : first.Perm second) : rise first = rise second :=
  (h.map _).sum_eq

theorem fall_perm {first second : List Int} (h : first.Perm second) : fall first = fall second :=
  (h.map _).sum_eq

/-- The net of the steps when all that go upwards are taken first. -/
def netRisingFirst (moves : List Int) : Int :=
  max least.val (min (rise moves) greatest.val - fall moves)

/-- The net of the steps when all that go downwards are taken first. -/
def netFallingFirst (moves : List Int) : Int :=
  min greatest.val (max least.val (-fall moves) + rise moves)

/-- Steps upwards are held once, at the top. -/
theorem val_takeAll_of_nonneg {moves : List Int} (h : ∀ move ∈ moves, 0 ≤ move) (net : Step) :
    (net.takeAll moves).val = min greatest.val (net.val + rise moves) ∧ fall moves = 0 := by
  induction moves generalizing net with
  | nil =>
    have hnet := net.within
    refine ⟨?_, rfl⟩
    show net.val = min greatest.val (net.val + 0)
    omega
  | cons move moves ih =>
    have hm := h move List.mem_cons_self
    have hnet := net.within
    have hr := rise_nonneg moves
    obtain ⟨hv, hf⟩ := ih (fun m hm => h m (List.mem_cons_of_mem _ hm)) (clamp (net.val + move))
    rw [takeAll_cons, rise_cons, fall_cons, hv, hf, val_clamp]
    omega

/-- Steps downwards are held once, at the bottom. -/
theorem val_takeAll_of_neg {moves : List Int} (h : ∀ move ∈ moves, move < 0) (net : Step) :
    (net.takeAll moves).val = max least.val (net.val - fall moves) ∧ rise moves = 0 := by
  induction moves generalizing net with
  | nil =>
    have hnet := net.within
    refine ⟨?_, rfl⟩
    show net.val = max least.val (net.val - 0)
    omega
  | cons move moves ih =>
    have hm := h move List.mem_cons_self
    have hnet := net.within
    have hf := fall_nonneg moves
    obtain ⟨hv, hr⟩ := ih (fun m hm => h m (List.mem_cons_of_mem _ hm)) (clamp (net.val + move))
    rw [takeAll_cons, rise_cons, fall_cons, hv, hr, val_clamp]
    omega

section Orders

variable {α : Type} (move : α → Int) (steps : List α)

/-- The steps that do not go downwards. -/
def ups : List α := steps.filter fun step => 0 ≤ move step

/-- The steps that go downwards. -/
def downs : List α := steps.filter fun step => !decide (0 ≤ move step)

theorem ups_append_downs_perm : (ups move steps ++ downs move steps).Perm steps :=
  List.filter_append_perm _ steps

/-- Parted by their signs, the steps are held at one end only. -/
theorem val_takeAll_parted (net : Step) :
    (net.takeAll ((ups move steps).map move)).val =
        min greatest.val (net.val + rise (steps.map move)) ∧
      (net.takeAll ((downs move steps).map move)).val =
        max least.val (net.val - fall (steps.map move)) := by
  have hups : ∀ m ∈ (ups move steps).map move, 0 ≤ m := by
    intro m hm
    obtain ⟨step, hs, rfl⟩ := List.mem_map.1 hm
    simpa using (List.mem_filter.1 hs).2
  have hdowns : ∀ m ∈ (downs move steps).map move, m < 0 := by
    intro m hm
    obtain ⟨step, hs, rfl⟩ := List.mem_map.1 hm
    simpa using (List.mem_filter.1 hs).2
  have hperm := (ups_append_downs_perm move steps).map move
  rw [List.map_append] at hperm
  obtain ⟨hup, hfall⟩ := val_takeAll_of_nonneg hups net
  obtain ⟨hdown, hrise⟩ := val_takeAll_of_neg hdowns net
  rw [hup, hdown, ← rise_perm hperm, ← fall_perm hperm, rise_append, fall_append, hrise, hfall,
    Int.add_zero, Int.zero_add]
  exact ⟨rfl, rfl⟩

theorem exists_perm_netRisingFirst : ∃ order : List α, order.Perm steps ∧
    (zero.takeAll (order.map move)).val = netRisingFirst (steps.map move) := by
  refine ⟨ups move steps ++ downs move steps, ups_append_downs_perm move steps, ?_⟩
  rw [List.map_append, takeAll_append, (val_takeAll_parted move steps _).2,
    (val_takeAll_parted move steps _).1]
  show max least.val (min greatest.val (0 + rise _) - fall _) =
    max least.val (min (rise _) greatest.val - fall _)
  omega

theorem exists_perm_netFallingFirst : ∃ order : List α, order.Perm steps ∧
    (zero.takeAll (order.map move)).val = netFallingFirst (steps.map move) := by
  refine ⟨downs move steps ++ ups move steps,
    List.perm_append_comm.trans (ups_append_downs_perm move steps), ?_⟩
  rw [List.map_append, takeAll_append, (val_takeAll_parted move steps _).1,
    (val_takeAll_parted move steps _).2]
  show min greatest.val (max least.val (0 - fall _) + rise _) =
    min greatest.val (max least.val (-fall _) + rise _)
  omega

end Orders

/-- No order of the steps ends lower than all upwards first, or higher than all downwards first.
The induction is on the steps, from any start. -/
theorem val_takeAll_between (net : Step) (moves : List Int) :
    max least.val (min (net.val + rise moves) greatest.val - fall moves) ≤
        (net.takeAll moves).val ∧
      (net.takeAll moves).val ≤
        min greatest.val (max least.val (net.val - fall moves) + rise moves) := by
  induction moves generalizing net with
  | nil =>
    have hnet := net.within
    show max least.val (min (net.val + 0) greatest.val - 0) ≤ net.val ∧
      net.val ≤ min greatest.val (max least.val (net.val - 0) + 0)
    omega
  | cons move moves ih =>
    have hr := rise_nonneg moves
    have hf := fall_nonneg moves
    have hnet := net.within
    obtain ⟨hlow, hhigh⟩ := ih (clamp (net.val + move))
    rw [val_clamp] at hlow hhigh
    rw [takeAll_cons, rise_cons, fall_cons]
    by_cases hm : 0 ≤ move
    · rw [Int.max_eq_left hm, Int.max_eq_right (by omega : -move ≤ 0)]
      omega
    · rw [Int.max_eq_right (by omega : move ≤ 0), Int.max_eq_left (by omega : 0 ≤ -move)]
      omega

/-- Every order of the steps ends between the two extreme ones. -/
theorem takeAll_zero_between {order moves : List Int} (h : order.Perm moves) :
    netRisingFirst moves ≤ (zero.takeAll order).val ∧
      (zero.takeAll order).val ≤ netFallingFirst moves := by
  obtain ⟨hlow, hhigh⟩ := val_takeAll_between zero order
  have hzero : zero.val = 0 := rfl
  rw [rise_perm h, fall_perm h, hzero] at hlow hhigh
  unfold netRisingFirst netFallingFirst
  omega

end Step

end Tabletop
