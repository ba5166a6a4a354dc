import Mathlib.Algebra.Field.Rat
import Mathlib.Algebra.Order.BigOperators.GroupWithZero.List
import Mathlib.Algebra.Order.Field.Rat
import Mathlib.Algebra.Order.Ring.Rat
import Mathlib.Order.Interval.Set.Defs
import Mathlib.Tactic.FieldSimp
import Mathlib.Tactic.Linarith
import Mathlib.Tactic.NormNum
import Mathlib.Tactic.Positivity
import Mathlib.Tactic.Ring
import PlotPane.Number.Exact
import PlotPane.Proofs.Views

/-!
# Views in exact numbers

A pixel is a square of the plane, `2 * scale / height` on each side. In exact numbers this is all
there is to a view: a screen point is as many pixels away from the top left corner of the visible
rectangle as it is on the screen. From this the two maps between screen and plane are inverse to
each other, the visible rectangle is the image of the screen, a pan is a translation of the plane,
and a zoom is a homothety of it whose fixed point is under the cursor.
-/

namespace PlotPane

/-- Zooms about one cursor, one after the other, each by an amount at a rate. -/
def View.zooms {α : Type} [Scalar α] (v : View α) (cursor : ScreenPoint α) (turns : List (α × α))
    (size : ScreenSize α) : Except (ViewError α) (View α) :=
  turns.foldlM (fun w turn => (w.zoom cursor turn.1 turn.2 size).map Prod.snd) v

namespace Exact

variable (exp exp2 : ℚ → ℚ)

/-- In exact numbers every positive number is a measure. -/
theorem isMeasure_iff {x : ℚ} : @Scalar.isMeasure ℚ (scalar exp exp2) x = true ↔ 0 < x := by
  have hzero : (0.0 : ℚ) = 0 := by norm_num
  rw [@Scalar.isMeasure_iff ℚ (scalar exp exp2), ← hzero]
  constructor
  · exact fun h => h.2
  · intro hx
    have hnum : x.num ≠ 0 := (Rat.num_pos.mpr (hzero ▸ hx)).ne'
    exact ⟨bne_iff_ne.mpr hnum, hx⟩

theorem isExtent_iff {x : ℚ} : @Scalar.isExtent ℚ (scalar exp exp2) x = true ↔ 0 < x := by
  have hzero : (0.0 : ℚ) = 0 := by norm_num
  rw [@Scalar.isExtent_iff ℚ (scalar exp exp2), ← hzero]
  exact ⟨fun h => h.2, fun hx => ⟨rfl, hx⟩⟩

section

variable (v : View ℚ) (size : ScreenSize ℚ) (p : ScreenPoint ℚ) (z : PlanePoint ℚ)

/-! The maps and moves of a view in the arithmetic of the rational numbers. -/

theorem toPlane_eq :
    @View.toPlane ℚ (scalar exp exp2) v size p =
      ⟨v.center.re + (p.x / size.width * 2 - 1) * (v.scale * (size.width / size.height)),
        v.center.im - (p.y / size.height * 2 - 1) * v.scale⟩ := by
  have htwo : (2.0 : ℚ) = 2 := by norm_num
  have hone : (1.0 : ℚ) = 1 := by norm_num
  rw [← htwo, ← hone]
  rfl

theorem toScreen_eq :
    @View.toScreen ℚ (scalar exp exp2) v size z =
      ⟨((z.re - v.center.re) / (v.scale * (size.width / size.height)) + 1) * size.width / 2,
        (1 - (z.im - v.center.im) / v.scale) * size.height / 2⟩ := by
  have hhalf (x : ℚ) : x / 2 = x * 0.5 := by norm_num [div_eq_mul_inv]
  have hone : (1.0 : ℚ) = 1 := by norm_num
  rw [hhalf, hhalf, ← hone]
  rfl

theorem pannedCenter_eq :
    @View.pannedCenter ℚ (scalar exp exp2) v p size =
      ⟨v.center.re - 2 * v.scale / size.height * p.x,
        v.center.im + 2 * v.scale / size.height * p.y⟩ := by
  have htwo : (2.0 : ℚ) = 2 := by norm_num
  rw [← htwo]
  rfl

theorem zoomShift_eq (factor : ℚ) :
    @View.zoomShift ℚ (scalar exp exp2) p factor size =
      ⟨(size.width / 2 - p.x) * (1 - factor), (size.height / 2 - p.y) * (1 - factor)⟩ := by
  have hhalf (x : ℚ) : x / 2 = x * 0.5 := by norm_num [div_eq_mul_inv]
  have hone : (1.0 : ℚ) = 1 := by norm_num
  rw [hhalf, hhalf, ← hone]
  rfl

/-! Pixels -/

/-- The side of a pixel in the plane. -/
def pixel : ℚ :=
  2 * v.scale / size.height

/-- The plane point at the top left corner of the screen. -/
def corner : PlanePoint ℚ :=
  ⟨v.center.re - pixel v size * size.width / 2, v.center.im + pixel v size * size.height / 2⟩

variable {v size} (hscale : 0 < v.scale) (hwidth : 0 < size.width) (hheight : 0 < size.height)

include hscale hheight in
theorem pixel_pos : 0 < pixel v size := by
  rw [pixel]
  positivity

include hwidth hheight in
theorem toPlane_eq_corner :
    @View.toPlane ℚ (scalar exp exp2) v size p =
      ⟨(corner v size).re + pixel v size * p.x, (corner v size).im - pixel v size * p.y⟩ := by
  rw [toPlane_eq, PlanePoint.mk.injEq, corner, pixel]
  constructor
  · field_simp
    ring
  · field_simp
    ring

include hscale hwidth hheight in
theorem toScreen_eq_corner :
    @View.toScreen ℚ (scalar exp exp2) v size z =
      ⟨(z.re - (corner v size).re) / pixel v size, ((corner v size).im - z.im) / pixel v size⟩ := by
  rw [toScreen_eq, ScreenPoint.mk.injEq, corner, pixel]
  constructor
  · field_simp
    ring
  · field_simp
    ring

include hscale hwidth hheight in
theorem toScreen_toPlane :
    letI := scalar exp exp2
    v.toScreen size (v.toPlane size p) = p := by
  have hpixel : pixel v size ≠ 0 := (pixel_pos hscale hheight).ne'
  rw [toScreen_eq_corner exp exp2 _ hscale hwidth hheight,
    toPlane_eq_corner exp exp2 p hwidth hheight]
  simp [hpixel]

include hheight in
theorem bounds_eq_corner :
    @View.bounds ℚ (scalar exp exp2) v size =
      { left := (corner v size).re
        bottom := (corner v size).im - pixel v size * size.height
        right := (corner v size).re + pixel v size * size.width
        top := (corner v size).im } := by
  have hbounds : @View.bounds ℚ (scalar exp exp2) v size =
      ⟨v.center.re - v.scale * (size.width / size.height), v.center.im - v.scale,
        v.center.re + v.scale * (size.width / size.height), v.center.im + v.scale⟩ := rfl
  rw [hbounds, corner, pixel, Bounds.mk.injEq]
  refine ⟨?_, ?_, ?_, ?_⟩
  · field_simp
  · field_simp
    ring
  · field_simp
    ring
  · field_simp

end

variable {v : View ℚ} {size : ScreenSize ℚ}

/-- In exact numbers the two maps between the screen and the plane are inverse to each other, for
every view with a positive scale and every screen with positive sides. -/
theorem toPlane_toScreen_inverse (exp exp2 : ℚ → ℚ) (v : View ℚ) (size : ScreenSize ℚ)
    (hscale : 0 < v.scale) (hwidth : 0 < size.width) (hheight : 0 < size.height)
    (p : ScreenPoint ℚ) (z : PlanePoint ℚ) :
    letI := scalar exp exp2
    v.toScreen size (v.toPlane size p) = p ∧ v.toPlane size (v.toScreen size z) = z := by
  have hpixel : pixel v size ≠ 0 := (pixel_pos hscale hheight).ne'
  constructor
  · exact toScreen_toPlane exp exp2 p hscale hwidth hheight
  · rw [toPlane_eq_corner exp exp2 _ hwidth hheight,
      toScreen_eq_corner exp exp2 z hscale hwidth hheight]
    simp [mul_div_cancel₀, hpixel]

/-- A point off a screen that is wider than high, seen by a view that is off the origin. -/
theorem toPlane_toScreen_inverse_wide :
    let exp : ℚ → ℚ := fun _ => 1
    letI := scalar exp exp
    let v : View ℚ := ⟨⟨1 / 7, -5⟩, 3 / 11, 1⟩
    let size : ScreenSize ℚ := ⟨1920, 1081⟩
    let p : ScreenPoint ℚ := ⟨-7 / 3, 2000⟩
    let z : PlanePoint ℚ := ⟨22 / 7, 1 / 1000⟩
    0 < v.scale ∧ 0 < size.width ∧ 0 < size.height ∧
      v.toScreen size (v.toPlane size p) = p ∧ v.toPlane size (v.toScreen size z) = z := by
  intro exp v size p z
  have hscale : 0 < v.scale := by norm_num [v]
  have hwidth : 0 < size.width := by norm_num [size]
  have hheight : 0 < size.height := by norm_num [size]
  exact ⟨hscale, hwidth, hheight,
    toPlane_toScreen_inverse exp exp v size hscale hwidth hheight p z⟩

/-- In exact numbers the visible rectangle is the image of the screen. A screen point is on the
screen exactly if its plane point is in the rectangle, the corners go to the corners, to the right
on the screen is to the right in the plane and down on the screen is down in the plane, and the
rectangle has the proportions of the screen and twice the scale for its height. -/
theorem bounds_image_of_screen (exp exp2 : ℚ → ℚ) (v : View ℚ) (size : ScreenSize ℚ)
    (hscale : 0 < v.scale) (hwidth : 0 < size.width) (hheight : 0 < size.height) :
    let toPlane := @View.toPlane ℚ (scalar exp exp2) v size
    let b := @View.bounds ℚ (scalar exp exp2) v size
    let width := @Bounds.width ℚ (scalar exp exp2) b
    let height := @Bounds.height ℚ (scalar exp exp2) b
    (∀ p, p.x ∈ Set.Icc 0 size.width ∧ p.y ∈ Set.Icc 0 size.height ↔
      (toPlane p).re ∈ Set.Icc b.left b.right ∧ (toPlane p).im ∈ Set.Icc b.bottom b.top) ∧
    toPlane ⟨0, 0⟩ = ⟨b.left, b.top⟩ ∧
    toPlane ⟨size.width, size.height⟩ = ⟨b.right, b.bottom⟩ ∧
    (∀ p q, p.x < q.x ↔ (toPlane p).re < (toPlane q).re) ∧
    (∀ p q, p.y < q.y ↔ (toPlane q).im < (toPlane p).im) ∧
    width / height = @ScreenSize.aspect ℚ (scalar exp exp2) size ∧
    @ScreenSize.aspect ℚ (scalar exp exp2) size = size.width / size.height ∧
    height = 2 * v.scale := by
  intro toPlane b width height
  have hpixel : 0 < pixel v size := pixel_pos hscale hheight
  have htoPlane (p : ScreenPoint ℚ) : toPlane p = _ := toPlane_eq_corner exp exp2 p hwidth hheight
  have hb : b = _ := bounds_eq_corner exp exp2 hheight
  have hbwidth : width = pixel v size * size.width := by
    change b.right - b.left = _
    rw [hb]
    ring
  have hbheight : height = pixel v size * size.height := by
    change b.top - b.bottom = _
    rw [hb]
    ring
  refine ⟨?_, ?_, ?_, ?_, ?_, ?_, rfl, ?_⟩
  · intro p
    -- Down on the screen is down in the plane, so the two ends change places on that axis.
    simp only [htoPlane, hb, Set.mem_Icc]
    refine and_congr ?_ (and_comm.trans ?_)
    · rw [le_add_iff_nonneg_right, add_le_add_iff_left, mul_nonneg_iff_of_pos_left hpixel,
        mul_le_mul_iff_right₀ hpixel]
    · rw [sub_le_sub_iff_left, sub_le_self_iff, mul_nonneg_iff_of_pos_left hpixel,
        mul_le_mul_iff_right₀ hpixel]
  · simp [htoPlane, hb]
  · rw [htoPlane, hb]
  · intro p q
    simp [htoPlane, hpixel]
  · intro p q
    simp [htoPlane, hpixel]
  · rw [hbwidth, hbheight]
    exact mul_div_mul_left _ _ hpixel.ne'
  · rw [hbheight, pixel]
    field_simp

/-- On a screen that is higher than wide, a point to the left of the right edge and below the top is
in the rectangle, and one that is as far off the screen as the screen is wide is not. -/
theorem bounds_image_of_screen_high :
    let exp : ℚ → ℚ := fun _ => 1
    let v : View ℚ := ⟨⟨-2, 1 / 3⟩, 3 / 2, 1⟩
    let size : ScreenSize ℚ := ⟨300, 400⟩
    let toPlane := @View.toPlane ℚ (scalar exp exp) v size
    let b := @View.bounds ℚ (scalar exp exp) v size
    0 < v.scale ∧ 0 < size.width ∧ 0 < size.height ∧
      ((toPlane ⟨299, 1⟩).re ∈ Set.Icc b.left b.right ∧
        (toPlane ⟨299, 1⟩).im ∈ Set.Icc b.bottom b.top) ∧
      ¬((toPlane ⟨600, 1⟩).re ∈ Set.Icc b.left b.right ∧
        (toPlane ⟨600, 1⟩).im ∈ Set.Icc b.bottom b.top) ∧
      toPlane ⟨300, 400⟩ = ⟨b.right, b.bottom⟩ := by
  intro exp v size toPlane b
  have hscale : 0 < v.scale := by norm_num [v]
  have hwidth : 0 < size.width := by norm_num [size]
  have hheight : 0 < size.height := by norm_num [size]
  obtain ⟨hmem, -, hright, -⟩ :=
    bounds_image_of_screen exp exp v size hscale hwidth hheight
  have hon := (hmem ⟨299, 1⟩).mp ⟨by norm_num [size], by norm_num [size]⟩
  have hoff := mt (hmem ⟨600, 1⟩).mpr (by norm_num [size])
  exact ⟨hscale, hwidth, hheight, hon, hoff, hright⟩

/-! Pan and zoom -/

/-- The homothety with a fixed point and a factor. -/
def homothety (c : PlanePoint ℚ) (f : ℚ) (z : PlanePoint ℚ) : PlanePoint ℚ :=
  ⟨c.re + f * (z.re - c.re), c.im + f * (z.im - c.im)⟩

theorem homothety_self (c : PlanePoint ℚ) (f : ℚ) : homothety c f c = c := by
  simp [homothety]

theorem homothety_one (c z : PlanePoint ℚ) : homothety c 1 z = z := by
  simp [homothety]

theorem homothety_homothety (c : PlanePoint ℚ) (f g : ℚ) (z : PlanePoint ℚ) :
    homothety c g (homothety c f z) = homothety c (f * g) z := by
  simp only [homothety, PlanePoint.mk.injEq]
  constructor <;> ring

/-- The view of the plane after a homothety. -/
def about (v : View ℚ) (c : PlanePoint ℚ) (f : ℚ) : View ℚ :=
  { v with center := homothety c f v.center, scale := v.scale * f }

theorem about_one (v : View ℚ) (c : PlanePoint ℚ) : about v c 1 = v := by
  simp [about, homothety_one]

theorem about_about (v : View ℚ) (c : PlanePoint ℚ) (f g : ℚ) :
    about (about v c f) c g = about v c (f * g) := by
  simp [about, homothety_homothety, mul_assoc]

theorem toPlane_about (v : View ℚ) (size : ScreenSize ℚ) (c : PlanePoint ℚ) (f : ℚ)
    (p : ScreenPoint ℚ) :
    @View.toPlane ℚ (scalar exp exp2) (about v c f) size p =
      homothety c f (@View.toPlane ℚ (scalar exp exp2) v size p) := by
  simp only [toPlane_eq, about, homothety, PlanePoint.mk.injEq]
  constructor <;> ring

/-- After a homothety about the point under a cursor, that point is still under it. -/
theorem about_toPlane_about (v : View ℚ) (size : ScreenSize ℚ) (cursor : ScreenPoint ℚ) (f g : ℚ) :
    letI := scalar exp exp2
    about (about v (v.toPlane size cursor) f)
        ((about v (v.toPlane size cursor) f).toPlane size cursor) g =
      about v (v.toPlane size cursor) (f * g) := by
  rw [toPlane_about, homothety_self, about_about]

section

variable (hwidth : 0 < size.width) (hheight : 0 < size.height)

include hwidth hheight

/-- The pan at the old scale and the new scale together are a homothety about the point under the
cursor. -/
theorem pannedCenter_zoomShift (v : View ℚ) (cursor : ScreenPoint ℚ) (f : ℚ) :
    @View.pannedCenter ℚ (scalar exp exp2) v (@View.zoomShift ℚ (scalar exp exp2) cursor f size)
        size =
      homothety (@View.toPlane ℚ (scalar exp exp2) v size cursor) f v.center := by
  simp only [toPlane_eq_corner exp exp2 cursor hwidth hheight, pannedCenter_eq, zoomShift_eq,
    corner, homothety, PlanePoint.mk.injEq]
  change _ - pixel v size * _ = _ ∧ _ + pixel v size * _ = _
  constructor <;> ring

theorem toPlane_pan (v : View ℚ) (delta p : ScreenPoint ℚ) :
    @View.toPlane ℚ (scalar exp exp2)
        { v with center := @View.pannedCenter ℚ (scalar exp exp2) v delta size } size
        ⟨p.x + delta.x, p.y + delta.y⟩ =
      @View.toPlane ℚ (scalar exp exp2) v size p := by
  simp only [toPlane_eq_corner exp exp2 _ hwidth hheight, pannedCenter_eq, corner, pixel,
    PlanePoint.mk.injEq]
  constructor <;> ring

theorem zoomBy_eq {v : View ℚ} (hscale : 0 < v.scale) (cursor : ScreenPoint ℚ) {f : ℚ}
    (hf : 0 < f) :
    letI := scalar exp exp2
    v.zoomBy cursor f size = .ok (about v (v.toPlane size cursor) f) := by
  have hmeasure := (isMeasure_iff exp exp2).mpr (mul_pos hscale hf)
  rw [about, ← pannedCenter_zoomShift exp exp2 hwidth hheight]
  exact if_pos hmeasure

theorem zoom_eq {v : View ℚ} (hscale : 0 < v.scale) (cursor : ScreenPoint ℚ) {amount rate : ℚ}
    (hexp : 0 < exp (amount * rate)) :
    letI := scalar exp exp2
    v.zoom cursor amount rate size =
      .ok (exp (amount * rate), about v (v.toPlane size cursor) (exp (amount * rate))) := by
  let _ := scalar exp exp2
  rw [View.zoom, show Scalar.exp (amount * rate) = exp (amount * rate) from rfl,
    zoomBy_eq exp exp2 hwidth hheight hscale cursor hexp]
  rfl

/-- Zooms about one cursor multiply, because the point under the cursor is still the same after each
of them. -/
theorem zooms_eq {v : View ℚ} (hscale : 0 < v.scale) (hexp : ∀ x, 0 < exp x)
    (cursor : ScreenPoint ℚ) (turns : List (ℚ × ℚ)) :
    letI := scalar exp exp2
    v.zooms cursor turns size =
      .ok (about v (v.toPlane size cursor) (turns.map fun turn => exp (turn.1 * turn.2)).prod) := by
  let _ := scalar exp exp2
  rw [View.zooms]
  induction turns generalizing v with
  | nil => exact congrArg Except.ok (about_one v _).symm
  | cons turn turns ih =>
      have hzoom := zoom_eq exp exp2 hwidth hheight hscale cursor (hexp (turn.1 * turn.2))
      have hrest := ih (v := about v (v.toPlane size cursor) (exp (turn.1 * turn.2)))
        (mul_pos hscale (hexp (turn.1 * turn.2)))
      rw [about_toPlane_about] at hrest
      rw [List.foldlM_cons, hzoom, List.map_cons, List.prod_cons]
      exact hrest

end

/-- In exact numbers, with any positive factors in place of exponentials: a pan moves the whole view
along with the pointer, and a zoom scales it about the plane point under the cursor by the factor
that it gives. Zooms about one cursor, however many, are the one zoom by the product of their
factors, and a zoom followed by the inverse one leaves the view as it was. -/
theorem pan_translation_zoom_homothety (exp exp2 : ℚ → ℚ) (hexp : ∀ x, 0 < exp x) (v : View ℚ)
    (size : ScreenSize ℚ) (hscale : 0 < v.scale) (hwidth : 0 < size.width)
    (hheight : 0 < size.height) :
    letI := scalar exp exp2
    (∀ delta, ∃ w, v.pan delta size = .ok w ∧ w.scale = v.scale ∧ w.resolution = v.resolution ∧
      ∀ p : ScreenPoint ℚ,
        w.toPlane size ⟨p.x + delta.x, p.y + delta.y⟩ = v.toPlane size p) ∧
    (∀ cursor amount rate,
      let f := exp (amount * rate)
      let c := v.toPlane size cursor
      ∃ w, v.zoom cursor amount rate size = .ok (f, w) ∧ w.scale = v.scale * f ∧
        w.resolution = v.resolution ∧
        ∀ p, w.toPlane size p = ⟨c.re + f * ((v.toPlane size p).re - c.re),
          c.im + f * ((v.toPlane size p).im - c.im)⟩) ∧
    (∀ cursor turns, v.zooms cursor turns size =
      v.zoomBy cursor (turns.map fun turn => exp (turn.1 * turn.2)).prod size) ∧
    ∀ cursor f, 0 < f →
      (v.zoomBy cursor f size).bind (fun w => w.zoomBy cursor (1 / f) size) = .ok v := by
  refine ⟨?_, ?_, ?_, ?_⟩
  · intro delta
    exact ⟨_, rfl, rfl, rfl, toPlane_pan exp exp2 hwidth hheight v delta⟩
  · intro cursor amount rate f c
    exact ⟨_, zoom_eq exp exp2 hwidth hheight hscale cursor (hexp (amount * rate)), rfl, rfl,
      toPlane_about exp exp2 v size c f⟩
  · intro cursor turns
    have hprod : 0 < (turns.map fun turn => exp (turn.1 * turn.2)).prod := by
      apply List.prod_pos
      intro f hf
      obtain ⟨turn, -, rfl⟩ := List.mem_map.mp hf
      exact hexp _
    rw [zooms_eq exp exp2 hwidth hheight hscale hexp,
      zoomBy_eq exp exp2 hwidth hheight hscale cursor hprod]
  · intro cursor f hf
    have hback := zoomBy_eq exp exp2 hwidth hheight
      (v := about v (@View.toPlane ℚ (scalar exp exp2) v size cursor) f) (mul_pos hscale hf) cursor
      (one_div_pos.mpr hf)
    rw [about_toPlane_about, mul_one_div_cancel hf.ne', about_one] at hback
    rw [zoomBy_eq exp exp2 hwidth hheight hscale cursor hf]
    exact hback

/-- On a screen that is wider than high: a pan to the lower left seen at a point far off the screen,
a zoom out about a point near a corner seen at the opposite corner, and three zooms that come to one
by a half. -/
theorem pan_translation_zoom_homothety_wide :
    let exp : ℚ → ℚ := fun x => if x < 0 then 1 / 2 else 2
    letI := scalar exp exp
    let v : View ℚ := ⟨⟨1, -2⟩, 3, 1⟩
    let size : ScreenSize ℚ := ⟨200, 100⟩
    let cursor : ScreenPoint ℚ := ⟨10, 90⟩
    (∀ x, 0 < exp x) ∧ 0 < v.scale ∧ 0 < size.width ∧ 0 < size.height ∧
      (∃ w, v.pan ⟨-30, 20⟩ size = .ok w ∧
        w.toPlane size ⟨970, -480⟩ = v.toPlane size ⟨1000, -500⟩) ∧
      (∃ w, v.zoom cursor 5 (1 / 2) size = .ok (2, w) ∧ w.scale = 6 ∧
        w.toPlane size ⟨200, 0⟩ = ⟨92 / 5, 32 / 5⟩) ∧
      v.zooms cursor [(-1, 1), (3, 1), (1, -2)] size = v.zoomBy cursor (1 / 2) size ∧
      (v.zoomBy cursor (7 / 3) size).bind (fun w => w.zoomBy cursor (1 / (7 / 3)) size) =
        .ok v := by
  intro exp v size cursor
  have hexp : ∀ x, 0 < exp x := by
    intro x
    simp only [exp]
    split <;> norm_num
  have hscale : 0 < v.scale := by norm_num [v]
  have hwidth : 0 < size.width := by norm_num [size]
  have hheight : 0 < size.height := by norm_num [size]
  obtain ⟨hpan, hzoom, hzooms, hback⟩ :=
    pan_translation_zoom_homothety exp exp hexp v size hscale hwidth hheight
  refine ⟨hexp, hscale, hwidth, hheight, ?_, ?_, ?_, hback cursor (7 / 3) (by norm_num)⟩
  · obtain ⟨w, hw, -, -, hmoved⟩ := hpan ⟨-30, 20⟩
    have hpoint : (⟨970, -480⟩ : ScreenPoint ℚ) = ⟨1000 + -30, -500 + 20⟩ := by norm_num
    refine ⟨w, hw, ?_⟩
    rw [hpoint]
    exact hmoved ⟨1000, -500⟩
  · have hfactor : exp (5 * (1 / 2)) = 2 := by norm_num [exp]
    obtain ⟨w, hw, hscaled, -, hmoved⟩ := hzoom cursor 5 (1 / 2)
    have hcorner := hmoved ⟨200, 0⟩
    rw [hfactor] at hw hscaled hcorner
    refine ⟨w, hw, hscaled.trans (by norm_num [v]), hcorner.trans ?_⟩
    decide +kernel
  · have hprod :
        ([(-1, 1), (3, 1), (1, -2)].map fun turn => exp (turn.1 * turn.2)).prod = 1 / 2 := by
      norm_num [exp]
    rw [hzooms, hprod]

end Exact

end PlotPane
