import GridBayes.Interpolator
import GridBayes.Proofs.ExactScalar

/-! Weighted sums over the corners of a cell, over exact scalars. Along each axis the value lies between
those at two neighbouring indices; written out, that is a sum over all corners, each weighted by a
product of one factor for every axis. The routines for one to five axes compute it in this way, and
every value they read is one that is stored. -/
namespace GridBayes
open Exact (real)

/-! ## Positions in storage -/

namespace Tensor

/-- The position of an entry: the last index runs fastest. -/
def position : (shape index : List ℕ) → ℕ
  | _ :: shape, i :: index => i * volume shape + position shape index
  | _, _ => 0

lemma position_lt {shape index : List ℕ} (h : List.Forall₂ (· < ·) index shape) :
    position shape index < volume shape := by
  induction h with
  | nil => exact Nat.one_pos
  | @cons i n index shape hi _ ih =>
    calc i * volume shape + position shape index < i * volume shape + volume shape := Nat.add_lt_add_left ih _
      _ = (i + 1) * volume shape := (Nat.succ_mul _ _).symm
      _ ≤ n * volume shape := Nat.mul_le_mul_right _ hi

lemma volume_nil : volume [] = 1 := rfl

lemma le_volume {shape : List ℕ} (h : ∀ n ∈ shape, 1 ≤ n) : ∀ n ∈ shape, n ≤ volume shape := by
  have hpos (shape : List ℕ) (h : ∀ n ∈ shape, 1 ≤ n) : 0 < volume shape := by
    induction shape with
    | nil => exact Nat.one_pos
    | cons n shape ih => exact Nat.mul_pos (h n List.mem_cons_self) (ih fun k hk => h k (List.mem_cons_of_mem _ hk))
  induction shape with
  | nil => simp
  | cons k shape ih =>
    have ht := fun n hn => h n (List.mem_cons_of_mem k hn)
    rintro n (_ | ⟨_, hn⟩)
    · exact Nat.le_mul_of_pos_right _ (hpos shape ht)
    · exact (ih ht n hn).trans (Nat.le_mul_of_pos_left _ (h k List.mem_cons_self))

def entry (t : Tensor Exact) {n : ℕ} (index : Fin n → ℕ) : Exact :=
  t.data.getD (position t.shape (List.ofFn index)) .nan

end Tensor

open Tensor (position volume volume_nil)

lemma inWord_natCast {n : ℕ} (h : n < 2147483648) : inWord n = n :=
  inWord_eq (Int.natCast_nonneg n) (by exact_mod_cast h)

/-- Strides are the products of the numbers of points on the later axes, if these are words. -/
lemma Strides.ofShape_eq {a b c d e : ℕ} (hx : volume [b, c, d, e] < 2147483648)
    (hy : volume [c, d, e] < 2147483648) (hz : volume [d, e] < 2147483648) : ofShape [a, b, c, d, e] =
      ⟨volume [b, c, d, e], volume [c, d, e], volume [d, e], volume [e]⟩ := by
  have hprod {n k p : ℕ} (h : n * k = p) (hp : p < 2147483648) : inWord ((n : ℤ) * k) = p := by
    rw [← Nat.cast_mul, h, inWord_natCast hp]
  have hz' : inWord ((e : ℤ) * d) = volume [d, e] := hprod (by simp [volume, mul_comm]) hz
  have hy' : inWord ((volume [d, e] : ℤ) * c) = volume [c, d, e] := hprod (by simp [volume, mul_comm]) hy
  have hx' : inWord ((volume [c, d, e] : ℤ) * b) = volume [b, c, d, e] := hprod (by simp [volume, mul_comm]) hx
  have he : volume [e] = e := by simp [volume]
  simp [ofShape, hz', hy', hx', he]

lemma Strides.total_eq {shape : List ℕ} (h : shape.length ≤ 5) : total shape = inWord (volume shape) := by
  have hmul (x y : ℤ) : inWord (inWord x * y) = inWord (x * y) := Int.bmod_mul_bmod
  have hprod : shape.getD 4 1 * shape.getD 3 1 * shape.getD 2 1 * shape.getD 1 1 * shape.getD 0 1 = volume shape := by
    match shape, h with
    | [], _ | [_], _ => simp [volume]
    | [_, _], _ | [_, _, _], _ | [_, _, _, _], _ | [_, _, _, _, _], _ =>
      simp [volume]
      ring
  simp only [total, ofShape, hmul, ← Nat.cast_mul, hprod]

variable [SpecialFunctions]

lemma between_real (w : ℝ) (a b : Exact) : between (real w) a b = real (1 - w) * a + real w * b := by
  have hone : (1.0 : Exact) = real 1 := by norm_num
  rw [between, hone, Exact.real_sub_real]

namespace Cell

/-! ## Along one axis after the other -/

/-- The value between the corners of a cell, by nesting along the axes. -/
noncomputable def nested (value : ℕ → Exact) : (shape : List ℕ) → List (ℕ × ℝ) → (s : ℕ) → Exact
  | _ :: shape, (i, w) :: places, s =>
    between (real w) (nested value shape places (s + i * volume shape))
      (nested value shape places (s + (i + 1) * volume shape))
  | _, _, s => value s

omit [SpecialFunctions] in
lemma sum_corners {n : ℕ} (f : (Fin (n + 1) → Bool) → Exact) :
    ∑ b, f b = ∑ b : Fin n → Bool, f (Fin.cons false b) + ∑ b : Fin n → Bool, f (Fin.cons true b) := by
  rw [← (Fin.consEquiv fun _ => Bool).sum_comp f, Fintype.sum_prod_type, Fintype.sum_bool, add_comm]
  rfl

omit [SpecialFunctions] in
lemma real_mul_sum {ι : Type} (s : Finset ι) (w : ℝ) (f : ι → Exact) :
    real w * ∑ i ∈ s, f i = ∑ i ∈ s, real w * f i := by
  have hzero : real w * (0 : Exact) = 0 := by simp [Exact.zero_def]
  exact map_sum (⟨⟨fun a => real w * a, hzero⟩, Exact.real_mul_add w⟩ : Exact →+ Exact) f s

lemma nested_eq_sum (value : ℕ → Exact) {n : ℕ} (shape i : Fin n → ℕ) (w : Fin n → ℝ) (s : ℕ) :
    nested value (List.ofFn shape) (List.ofFn fun k => (i k, w k)) s =
      ∑ b : Fin n → Bool, real (∏ k, if b k then w k else 1 - w k) *
        value (s + position (List.ofFn shape) (List.ofFn fun k => i k + (b k).toNat)) := by
  induction n generalizing s with
  | zero => simp [nested, position, Exact.one_mul]
  | succ n ih =>
    simp only [List.ofFn_succ, nested, ih, between_real, real_mul_sum, ← Exact.real_mul_mul]
    rw [sum_corners]
    simp only [Fin.prod_univ_succ, Fin.cons_zero, Fin.cons_succ, position, Bool.toNat_false,
      Bool.toNat_true, if_true, Bool.false_eq_true, if_false, add_zero, add_assoc]

/-! ## The routines -/

def Reads {m : Type → Type} [Monad m] (read : ℤ → m Exact) (value : ℕ → Exact) (size : ℕ) : Prop :=
  ∀ p : ℕ, p < size → read p = pure (value p)

section

variable {m : Type → Type} [Monad m] [LawfulMonad m] {read : ℤ → m Exact} {value : ℕ → Exact} {size : ℕ}

variable {s : ℤ} {p a i b j c k d l n : ℕ}

section

variable (h : Reads read value size) (hsize : size ≤ 2147483648)

include h hsize

lemma edge_eq {stride : ℕ} (hs : s = p) (hp : p + stride < size) (w : Exact) :
    edge read s stride w = pure (between w (value p) (value (p + stride))) := by
  have hfar : read (inWord (s + stride)) = pure (value (p + stride)) := by
    rw [hs, ← Nat.cast_add, inWord_natCast (by omega)]
    exact h _ hp
  rw [edge, hfar, hs, inWord_natCast (by omega), h p (by omega)]
  simp

lemma cube_eq {xs ys zs : ℕ} (hs : s = p) (hp : p + xs + ys + zs < size) (xw yw zw : Exact) :
    cube read s xs ys zs xw yw zw = pure (
      let line (p : ℕ) := between zw (value p) (value (p + zs))
      between xw (between yw (line p) (line (p + ys))) (between yw (line (p + xs)) (line (p + xs + ys)))) := by
  have hy : s + ys = (p + ys : ℕ) := by omega
  have hxy : s + ys + xs = (p + xs + ys : ℕ) := by omega
  have hx : s + ys + xs - ys = (p + xs : ℕ) := by omega
  simp [cube, edge_eq h hsize hs (by omega : p + zs < size), edge_eq h hsize hy (by omega : p + ys + zs < size),
    edge_eq h hsize hxy (by omega : p + xs + ys + zs < size), edge_eq h hsize hx (by omega : p + xs + zs < size)]

/-! The highest corner of the cell is stored, and then so are the others. -/

lemma blend_one (w : ℝ) (hp : position [a] [i + 1] < size) :
    blend read (Strides.ofShape [a]) [((i : ℤ), real w)] = pure (nested value [a] [(i, w)] 0) := by
  have hi : i + 1 < size := by simpa [position, volume] using hp
  simpa [blend, nested, volume] using edge_eq h hsize rfl hi (real w)

lemma blend_two (xw yw : ℝ) (hp : position [a, b] [i + 1, j + 1] < size) :
    blend read (Strides.ofShape [a, b]) [((i : ℤ), real xw), ((j : ℤ), real yw)] =
      pure (nested value [a, b] [(i, xw), (j, yw)] 0) := by
  simp only [position, add_mul, volume_nil] at hp
  have hs : Strides.ofShape [a, b] = ⟨volume [b], (1 : ℕ), (1 : ℕ), (1 : ℕ)⟩ :=
    Strides.ofShape_eq (a := a) (c := 1) (d := 1) (e := 1) (by omega : volume [b] < 2147483648) (by decide) (by decide)
  simp only [nested, hs, volume_nil]
  generalize volume [b] = X at hp ⊢
  have hlow : (i : ℤ) * X + j * (1 : ℕ) = (i * X + j : ℕ) := by push_cast; ring
  have hhigh : (i : ℤ) * X + j * (1 : ℕ) + X = (i * X + j + X : ℕ) := by push_cast; ring
  simp only [blend, edge_eq h hsize hlow (by omega : _ + 1 < size), edge_eq h hsize hhigh (by omega : _ + 1 < size), pure_bind]
  ring_nf

lemma blend_three (xw yw zw : ℝ) (hp : position [a, b, c] [i + 1, j + 1, k + 1] < size) :
    blend read (Strides.ofShape [a, b, c]) [((i : ℤ), real xw), ((j : ℤ), real yw), ((k : ℤ), real zw)] =
      pure (nested value [a, b, c] [(i, xw), (j, yw), (k, zw)] 0) := by
  simp only [position, add_mul, volume_nil] at hp
  have hs : Strides.ofShape [a, b, c] = ⟨volume [b, c], volume [c], (1 : ℕ), (1 : ℕ)⟩ :=
    Strides.ofShape_eq (a := a) (d := 1) (e := 1) (by omega : volume [b, c] < 2147483648)
      (by omega : volume [c] < 2147483648) (by decide)
  simp only [nested, hs, volume_nil]
  generalize volume [b, c] = X, volume [c] = Y at hp ⊢
  have hlow : (i : ℤ) * X + j * Y + k * (1 : ℕ) = (i * X + j * Y + k : ℕ) := by push_cast; ring
  simp only [blend, cube_eq h hsize hlow (by omega : _ + X + Y + 1 < size)]
  ring_nf

lemma blend_four (xw yw zw uw : ℝ) (hp : position [a, b, c, d] [i + 1, j + 1, k + 1, l + 1] < size) :
    blend read (Strides.ofShape [a, b, c, d])
        [((i : ℤ), real xw), ((j : ℤ), real yw), ((k : ℤ), real zw), ((l : ℤ), real uw)] =
      pure (nested value [a, b, c, d] [(i, xw), (j, yw), (k, zw), (l, uw)] 0) := by
  simp only [position, add_mul, volume_nil] at hp
  have hs : Strides.ofShape [a, b, c, d] = ⟨volume [b, c, d], volume [c, d], volume [d], (1 : ℕ)⟩ :=
    Strides.ofShape_eq (a := a) (e := 1) (by omega : volume [b, c, d] < 2147483648) (by omega : volume [c, d] < 2147483648)
      (by omega : volume [d] < 2147483648)
  simp only [nested, hs, volume_nil]
  generalize volume [b, c, d] = X, volume [c, d] = Y, volume [d] = Z at hp ⊢
  have hlow : (i : ℤ) * X + j * Y + k * Z + l * (1 : ℕ) = (i * X + j * Y + k * Z + l : ℕ) := by push_cast; ring
  have hhigh : (i : ℤ) * X + j * Y + k * Z + l * (1 : ℕ) + X = (i * X + j * Y + k * Z + l + X : ℕ) := by push_cast; ring
  simp only [blend, cube_eq h hsize hlow (by omega : _ + Y + Z + 1 < size),
    cube_eq h hsize hhigh (by omega : _ + Y + Z + 1 < size), pure_bind]
  ring_nf

lemma blend_five {e : ℕ} (xw yw zw uw vw : ℝ)
    (hp : position [a, b, c, d, e] [i + 1, j + 1, k + 1, l + 1, n + 1] < size) :
    blend read (Strides.ofShape [a, b, c, d, e])
        [((i : ℤ), real xw), ((j : ℤ), real yw), ((k : ℤ), real zw), ((l : ℤ), real uw), ((n : ℤ), real vw)] =
      pure (nested value [a, b, c, d, e] [(i, xw), (j, yw), (k, zw), (l, uw), (n, vw)] 0) := by
  simp only [position, add_mul, volume_nil] at hp
  simp only [nested, Strides.ofShape_eq (a := a) (by omega : volume [b, c, d, e] < 2147483648) (by omega) (by omega),
    volume_nil]
  generalize volume [b, c, d, e] = X, volume [c, d, e] = Y, volume [d, e] = Z, volume [e] = U at hp ⊢
  obtain ⟨p, hlow⟩ : ∃ p, p = i * X + j * Y + k * Z + l * U + n := ⟨_, rfl⟩
  -- the position goes from the lowest cube to the next along the second axis, then to both along the first
  have h00 : (i : ℤ) * X + j * Y + k * Z + l * U + n = p := by rw [hlow]; push_cast; ring
  have h01 : (p : ℤ) + Y = (p + Y : ℕ) := by omega
  have h11 : (p : ℤ) + Y + X = (p + Y + X : ℕ) := by omega
  have h10 : (p : ℤ) + Y + X - Y = (p + X : ℕ) := by omega
  have hcube {s : ℤ} {p : ℕ} (hs : s = p) (hp : p + Z + U + 1 < size) :=
    cube_eq h hsize hs hp (real zw) (real uw) (real vw)
  rw [Nat.cast_one] at hcube
  simp only [blend, h00, hcube (p := p) rfl (by omega), hcube h01 (by omega), hcube h11 (by omega),
    hcube h10 (by omega), pure_bind]
  simp only [hlow]
  ring_nf

end

/-- The routine for `n` axes gives the value between the corners, and reads nothing but stored values. -/
lemma blend_eq_nested (hn : 1 ≤ n) (hn' : n ≤ 5) {shape i : Fin n → ℕ} (w : Fin n → ℝ) (hi : ∀ k, i k + 1 < shape k)
    (h : Reads read value (volume (List.ofFn shape))) (hsize : volume (List.ofFn shape) ≤ 2147483648) :
    blend read (Strides.ofShape (List.ofFn shape)) (List.ofFn fun k => ((i k : ℤ), real (w k))) =
      pure (nested value (List.ofFn shape) (List.ofFn fun k => (i k, w k)) 0) := by
  have hp : position (List.ofFn shape) (List.ofFn fun k => i k + 1) < volume (List.ofFn shape) := by
    refine Tensor.position_lt (List.forall₂_iff_get.mpr ⟨by simp, ?_⟩)
    intro k hk hk'
    simpa using hi _
  interval_cases n
  · exact blend_one h hsize _ hp
  · exact blend_two h hsize _ _ hp
  · exact blend_three h hsize _ _ _ hp
  · exact blend_four h hsize _ _ _ _ hp
  · exact blend_five h hsize _ _ _ _ _ hp

end

end Cell

end GridBayes
