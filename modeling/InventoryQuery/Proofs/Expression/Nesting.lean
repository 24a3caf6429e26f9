import InventoryQuery.Proofs.Expression.Evaluation
/-!
# How deep the reader goes

The pass over a text that bounds the nesting does not read it, and still it bounds what the reader
does on every text: the reader never has more factors open inside one another than the bound and
one.  On an expression the bound is the depth of its tree, so an expression is refused for its depth
alone.

What ties the pass to the reader is that both are at the same place in front of an operand: the pass
has counted the parentheses and signs around it, and behind the operand it has counted them off.
-/

namespace InventoryQuery.Expression

open Nesting (opensOperand)
open Text (found?_eq_some_iff)

/-- The characters of a literal. -/
def isNumeric (c : Char) : Bool := c.isDigit || c == '.'

theorem Literal.isNumeric_of_mem (l : Literal) {c : Char} (hc : c ∈ l.text) :
    isNumeric c = true := by
  have hdigit : c.isDigit = true → isNumeric c = true := fun h => by rw [isNumeric, h, Bool.true_or]
  rcases List.mem_append.1 hc with hc | hc
  · exact hdigit (l.whole.isDigit_of_mem hc)
  · split at hc
    · cases hc
    · next digits _ =>
      rcases List.mem_cons.1 hc with rfl | hc
      · rfl
      · exact hdigit (digits.isDigit_of_mem hc)

namespace Nesting

/-! ## What is counted off was counted -/

/-- What the closing of the open parentheses counts off, all of them together. -/
def owed : List Nat → Nat
  | [] => 0
  | run :: pending => run + 1 + owed pending

theorem owed_step {n : Nesting} (h : n.depth = owed n.pending) (c : Char) :
    (n.step c).depth = owed (n.step c).pending := by
  simp only [step, move]
  split
  · exact h
  · split
    · simp only [owed]
      omega
    · split
      · split
        · next hpending => rw [h, hpending]
        · next run pending hpending =>
          rw [hpending, owed] at h
          simp only
          omega
      · exact h

theorem owed_foldl_step {n : Nesting} (h : n.depth = owed n.pending) (s : Text) :
    (s.foldl step n).depth = owed (s.foldl step n).pending := by
  induction s generalizing n with
  | nil => exact h
  | cons c s ih => exact ih (owed_step h c)

theorem le_depth_of_pending (s : Text) {run : Nat} {pending : List Nat}
    (h : (s.foldl step start).pending = run :: pending) :
    run + 1 ≤ (s.foldl step start).depth := by
  rw [owed_foldl_step rfl s, h, owed]
  exact Nat.le_add_right _ _

/-! ## In front of an operand and behind it -/

/-- The pass is in front of an operand, or of a sign of one. -/
structure IsOpen (n : Nesting) : Prop where
  opens : opensOperand n.before = true
  le_deepest : n.depth + n.signs ≤ n.deepest

/-- The pass is behind an operand. -/
structure IsClosed (n : Nesting) : Prop where
  closes : opensOperand n.before = false
  signs : n.signs = 0
  le_deepest : n.depth ≤ n.deepest

theorem isOpen_start : start.IsOpen := ⟨rfl, Nat.le_refl _⟩

/-- From `n` to `m` the pass went over an operand that nests `k` deep. -/
structure Passed (n : Nesting) (k : Nat) (m : Nesting) : Prop where
  closes : opensOperand m.before = false
  signs : m.signs = 0
  depth : m.depth = n.depth
  pending : m.pending = n.pending
  deepest : m.deepest = max n.deepest (n.depth + n.signs + k)

variable {n m : Nesting}

theorem Passed.isClosed {k : Nat} (h : n.Passed k m) : m.IsClosed where
  closes := h.closes
  signs := h.signs
  le_deepest := by
    rw [h.depth, h.deepest]
    omega

theorem deepest_le_step (n : Nesting) (c : Char) : n.deepest ≤ (n.step c).deepest := by
  have hmove : (n.move c).deepest = n.deepest := by
    unfold move
    split
    · rfl
    · split
      · rfl
      · split
        · split <;> rfl
        · rfl
  rw [step, hmove]
  exact Nat.le_max_left _ _

theorem deepest_le_foldl (n : Nesting) (s : Text) : n.deepest ≤ (s.foldl step n).deepest := by
  induction s generalizing n with
  | nil => exact Nat.le_refl _
  | cons c s ih => exact Nat.le_trans (n.deepest_le_step c) (ih (n.step c))

theorem step_sign (h : n.IsOpen) (sign : Sign) :
    n.step sign.char = { n with
      signs := n.signs + 1
      deepest := max n.deepest (n.depth + (n.signs + 1))
      before := some sign.char } := by
  have hmove : n.move sign.char = { n with signs := n.signs + 1 } := by
    rw [move, if_pos ⟨by cases sign <;> simp [Sign.char], h.opens⟩]
  rw [step, hmove]

theorem step_open (n : Nesting) :
    n.step '(' = {
      pending := n.signs :: n.pending
      depth := n.depth + (n.signs + 1)
      signs := 0
      deepest := max n.deepest (n.depth + (n.signs + 1))
      before := some '(' } := rfl

theorem step_close {run : Nat} {pending : List Nat} (h : n.pending = run :: pending) :
    n.step ')' = {
      pending := pending
      depth := n.depth - (run + 1)
      signs := 0
      deepest := max n.deepest (n.depth - (run + 1))
      before := some ')' } := by
  have hmove : n.move ')' =
      { n with depth := n.depth - (run + 1), pending := pending, signs := 0 } := by
    rw [move, if_neg (by simp), if_neg (by decide), if_pos rfl, h]
  rw [step, hmove]
  rfl

/-- Any other character than a counted sign and a parenthesis ends a run of signs. -/
theorem step_other {c : Char} (hsign : (c = '+' ∨ c = '-') → opensOperand n.before = false)
    (hopen : c ≠ '(') (hclose : c ≠ ')') :
    n.step c = { n with signs := 0, deepest := max n.deepest n.depth, before := some c } := by
  have hmove : n.move c = { n with signs := 0 } := by
    rw [move, if_neg (fun h => by rw [hsign h.1] at h; cases h.2), if_neg hopen, if_neg hclose]
  rw [step, hmove]
  rfl

/-- Behind an operand all but a parenthesis leaves the pass as it is. -/
theorem IsClosed.step_other (h : n.IsClosed) {c : Char} (hopen : c ≠ '(') (hclose : c ≠ ')') :
    n.step c = { n with before := some c } := by
  rw [Nesting.step_other (fun _ => h.closes) hopen hclose, Nat.max_eq_left h.le_deepest]
  simp only [h.signs]

theorem IsClosed.step_sign (h : n.IsClosed) (op : Sign) :
    n.step op.char = { n with before := some op.char } :=
  h.step_other (by cases op <;> decide) (by cases op <;> decide)

theorem IsClosed.step_scale (h : n.IsClosed) (op : Scale) :
    n.step op.char = { n with before := some op.char } :=
  h.step_other (by cases op <;> decide) (by cases op <;> decide)

theorem IsClosed.isOpen (h : n.IsClosed) {c : Char} (hc : opensOperand (some c) = true) :
    IsOpen { n with before := some c } where
  opens := hc
  le_deepest := by
    rw [h.signs]
    exact h.le_deepest

theorem opensOperand_sign (op : Sign) : opensOperand (some op.char) = true := by cases op <;> rfl

theorem opensOperand_scale (op : Scale) : opensOperand (some op.char) = true := by cases op <;> rfl

theorem IsOpen.isOpen_step_sign (h : n.IsOpen) (sign : Sign) : (n.step sign.char).IsOpen := by
  rw [step_sign h]
  exact ⟨by cases sign <;> rfl, Nat.le_max_right _ _⟩

theorem isOpen_step_open (n : Nesting) : (n.step '(').IsOpen := by
  rw [step_open]
  exact ⟨rfl, Nat.le_max_right _ _⟩

/-! ## The pass over an expression -/

/-- Two operands with an operator between them nest as deep as the deeper one. -/
theorem Passed.operator {k l : Nat} {m' : Nesting} (hn : n.signs = 0) (h : n.Passed k m)
    {c : Char} (h' : Passed { m with before := some c } l m') : n.Passed (max k l) m' where
  closes := h'.closes
  signs := h'.signs
  depth := h'.depth.trans h.depth
  pending := h'.pending.trans h.pending
  deepest := by
    rw [h'.deepest, h.deepest, h.depth, h.signs, hn]
    omega

section Numeric

variable {c : Char} (hc : isNumeric c = true)

include hc

theorem ne_of_isNumeric {d : Char} (hd : isNumeric d = false) : c ≠ d := by
  rintro rfl
  rw [hc] at hd
  cases hd

theorem opensOperand_of_isNumeric : opensOperand (some c) = false := by
  have hne : ∀ d, isNumeric d = false → (c == d) = false :=
    fun d hd => beq_false_of_ne (ne_of_isNumeric hc hd)
  simp only [opensOperand, hne '(' rfl, hne '+' rfl, hne '-' rfl, hne '*' rfl, hne '/' rfl,
    Bool.or_false]

theorem passed_step_numeric (h : n.IsOpen) : n.Passed 0 (n.step c) := by
  have hle := h.le_deepest
  have hsign : (c = '+' ∨ c = '-') → opensOperand n.before = false := by
    rintro (rfl | rfl) <;> cases hc
  rw [step_other hsign (ne_of_isNumeric hc rfl) (ne_of_isNumeric hc rfl)]
  refine ⟨opensOperand_of_isNumeric hc, rfl, rfl, rfl, ?_⟩
  simp only
  omega

theorem Passed.step_numeric {k : Nat} (h : n.Passed k m) : n.Passed k (m.step c) := by
  rw [h.isClosed.step_other (ne_of_isNumeric hc rfl) (ne_of_isNumeric hc rfl)]
  exact { h with closes := opensOperand_of_isNumeric hc }

end Numeric

theorem Passed.foldl_numeric {k : Nat} (h : n.Passed k m) {s : Text}
    (hs : ∀ c ∈ s, isNumeric c = true) : n.Passed k (s.foldl step m) := by
  induction s generalizing m with
  | nil => exact h
  | cons c s ih =>
    obtain ⟨hc, hs⟩ := List.forall_mem_cons.1 hs
    exact ih (h.step_numeric hc) hs

theorem passed_literal (h : n.IsOpen) (l : Literal) : n.Passed 0 (l.text.foldl step n) := by
  have hnumeric : ∀ c ∈ l.text, isNumeric c = true := fun c hc => l.isNumeric_of_mem hc
  obtain ⟨c, s, htext, -⟩ := l.exists_text_eq_cons
  rw [htext] at hnumeric ⊢
  obtain ⟨hc, hs⟩ := List.forall_mem_cons.1 hnumeric
  exact (passed_step_numeric hc h).foldl_numeric hs

mutual

theorem passed_factor {n : Nesting} (h : n.IsOpen) (f : Factor) :
    n.Passed f.depth (f.text.foldl step n) := by
  cases f with
  | literal l => exact passed_literal h l
  | group t =>
    have hsum := passed_sum n.isOpen_step_open rfl t
    have hpending : (t.text.foldl step (n.step '(')).pending = n.signs :: n.pending := hsum.pending
    rw [Factor.text, List.foldl_cons, List.foldl_append, List.foldl_cons, List.foldl_nil,
      step_close hpending, hsum.depth, hsum.deepest, step_open]
    refine ⟨rfl, rfl, ?_, rfl, ?_⟩
    · simp only
      omega
    · simp only [Factor.depth]
      omega
  | signed sign f =>
    have hfactor := passed_factor (h.isOpen_step_sign sign) f
    rw [Factor.text, List.foldl_cons]
    refine ⟨hfactor.closes, hfactor.signs, ?_, ?_, ?_⟩
    · rw [hfactor.depth, step_sign h]
    · rw [hfactor.pending, step_sign h]
    · rw [hfactor.deepest, step_sign h, Factor.depth]
      simp only
      omega

theorem passed_product {n : Nesting} (h : n.IsOpen) (hsigns : n.signs = 0) (p : Product) :
    n.Passed p.depth (p.text.foldl step n) := by
  cases p with
  | factor f => exact passed_factor h f
  | extend p op f =>
    have hproduct := passed_product h hsigns p
    have hclosed := hproduct.isClosed
    have hopen := hclosed.isOpen (opensOperand_scale op)
    rw [Product.text, List.foldl_append, List.foldl_cons, hclosed.step_scale op]
    exact hproduct.operator hsigns (passed_factor hopen f)

theorem passed_sum {n : Nesting} (h : n.IsOpen) (hsigns : n.signs = 0) (t : Sum) :
    n.Passed t.depth (t.text.foldl step n) := by
  cases t with
  | product p => exact passed_product h hsigns p
  | extend t op p =>
    have hsum := passed_sum h hsigns t
    have hclosed := hsum.isClosed
    have hopen := hclosed.isOpen (opensOperand_sign op)
    rw [Sum.text, List.foldl_append, List.foldl_cons, hclosed.step_sign op]
    exact hsum.operator hsigns (passed_product hopen hclosed.signs p)

end

end Nesting

theorem nesting_text (t : Sum) : nesting t.text = t.depth := by
  have h := Nesting.passed_sum Nesting.isOpen_start rfl t
  rw [nesting, h.deepest]
  simp [Nesting.start]

/-! ## Factors inside one another -/

mutual

/-- The largest number of calls for a factor that are inside one another while a factor is read,
this call included. -/
def factorCalls (s : Text) : Nat :=
  match s with
  | [] => 1
  | c :: r =>
    if c = '(' then sumCalls r + 1
    else match sign? c with
      | some _ => factorCalls r + 1
      | none => 1
termination_by 4 * s.length

/-- The largest number of calls for a factor inside one another while a product is read. -/
def productCalls (s : Text) : Nat :=
  match readFactor s with
  | .error _ => factorCalls s
  | .ok (_, ⟨r, _⟩) => max (factorCalls s) (furtherFactorCalls r)
termination_by 4 * s.length + 1

/-- The same for the factors of a product behind the first one. -/
def furtherFactorCalls (s : Text) : Nat :=
  match s with
  | [] => 0
  | c :: r =>
    match scale? c with
    | none => 0
    | some _ =>
      match readFactor r with
      | .error _ => factorCalls r
      | .ok (_, ⟨r', _⟩) => max (factorCalls r) (furtherFactorCalls r')
termination_by 4 * s.length

/-- The largest number of calls for a factor inside one another while a sum is read. -/
def sumCalls (s : Text) : Nat :=
  match readProduct s with
  | .error _ => productCalls s
  | .ok (_, ⟨r, _⟩) => max (productCalls s) (furtherProductCalls r)
termination_by 4 * s.length + 2

/-- The same for the products of a sum behind the first one. -/
def furtherProductCalls (s : Text) : Nat :=
  match s with
  | [] => 0
  | c :: r =>
    match sign? c with
    | none => 0
    | some _ =>
      match readProduct r with
      | .error _ => productCalls r
      | .ok (_, ⟨r', _⟩) => max (productCalls r) (furtherProductCalls r')
termination_by 4 * s.length

end

namespace Nesting

variable {n : Nesting} {s r : Text}

theorem exists_passed_of_readFactor (h : n.IsOpen) {f : Factor} {hr : r.length < s.length}
    (hread : readFactor s = .ok (f, ⟨r, hr⟩)) :
    ∃ m, n.Passed f.depth m ∧ s.foldl step n = r.foldl step m := by
  refine ⟨_, passed_factor h f, ?_⟩
  rw [← text_of_readFactor hread, List.foldl_append]

theorem exists_passed_of_readProduct (h : n.IsOpen) (hsigns : n.signs = 0) {p : Product}
    {hr : r.length < s.length} (hread : readProduct s = .ok (p, ⟨r, hr⟩)) :
    ∃ m, n.Passed p.depth m ∧ s.foldl step n = r.foldl step m := by
  refine ⟨_, passed_product h hsigns p, ?_⟩
  rw [← text_of_readProduct hread, List.foldl_append]

-- A reader that fails has been over a start of the text only, but the bound never gets smaller on
-- the way to the end.
mutual

theorem factorCalls_le {n : Nesting} (h : n.IsOpen) (s : Text) :
    n.depth + n.signs + factorCalls s ≤ (s.foldl step n).deepest + 1 := by
  have hle := h.le_deepest
  unfold factorCalls
  split
  · simp only [List.foldl_nil]
    omega
  · next c r =>
    split
    · next hc =>
      subst hc
      have hsum := sumCalls_le n.isOpen_step_open rfl r
      simp only [step_open, List.foldl_cons] at hsum ⊢
      omega
    · split
      · next sign hsign =>
        obtain rfl := char_of_sign? hsign
        have hfactor := factorCalls_le (h.isOpen_step_sign sign) r
        simp only [step_sign h, List.foldl_cons] at hfactor ⊢
        omega
      · have hmost := n.deepest_le_foldl (c :: r)
        omega
termination_by 4 * s.length

theorem productCalls_le {n : Nesting} (h : n.IsOpen) (hsigns : n.signs = 0) (s : Text) :
    n.depth + productCalls s ≤ (s.foldl step n).deepest + 1 := by
  have hfactor := factorCalls_le h s
  unfold productCalls
  split
  · omega
  · next f r hr hread =>
    obtain ⟨m, hm, hfold⟩ := exists_passed_of_readFactor h hread
    have hfurther := furtherFactorCalls_le hm.isClosed r
    rw [hm.depth, ← hfold] at hfurther
    omega
termination_by 4 * s.length + 1

theorem furtherFactorCalls_le {n : Nesting} (h : n.IsClosed) (s : Text) :
    n.depth + furtherFactorCalls s ≤ (s.foldl step n).deepest + 1 := by
  have hle := h.le_deepest
  cases s with
  | nil =>
    rw [furtherFactorCalls, List.foldl_nil]
    omega
  | cons c r =>
    unfold furtherFactorCalls
    split
    · have hmost := n.deepest_le_foldl (c :: r)
      omega
    · next op hop =>
      obtain rfl := char_of_scale? hop
      have hopen := h.isOpen (opensOperand_scale op)
      have hfactor := factorCalls_le hopen r
      rw [List.foldl_cons, h.step_scale op]
      split
      · simp only at hfactor
        omega
      · next f r' hr hread =>
        obtain ⟨m, hm, hfold⟩ := exists_passed_of_readFactor hopen hread
        have hfurther := furtherFactorCalls_le hm.isClosed r'
        rw [hm.depth, ← hfold] at hfurther
        simp only at hfactor hfurther
        omega
termination_by 4 * s.length

theorem sumCalls_le {n : Nesting} (h : n.IsOpen) (hsigns : n.signs = 0) (s : Text) :
    n.depth + sumCalls s ≤ (s.foldl step n).deepest + 1 := by
  have hproduct := productCalls_le h hsigns s
  unfold sumCalls
  split
  · exact hproduct
  · next p r hr hread =>
    obtain ⟨m, hm, hfold⟩ := exists_passed_of_readProduct h hsigns hread
    have hfurther := furtherProductCalls_le hm.isClosed r
    rw [hm.depth, ← hfold] at hfurther
    omega
termination_by 4 * s.length + 2

theorem furtherProductCalls_le {n : Nesting} (h : n.IsClosed) (s : Text) :
    n.depth + furtherProductCalls s ≤ (s.foldl step n).deepest + 1 := by
  have hle := h.le_deepest
  cases s with
  | nil =>
    rw [furtherProductCalls, List.foldl_nil]
    omega
  | cons c r =>
    unfold furtherProductCalls
    split
    · have hmost := n.deepest_le_foldl (c :: r)
      omega
    · next op hop =>
      obtain rfl := char_of_sign? hop
      have hopen := h.isOpen (opensOperand_sign op)
      have hproduct := productCalls_le hopen h.signs r
      rw [List.foldl_cons, h.step_sign op]
      split
      · exact hproduct
      · next p r' hr hread =>
        obtain ⟨m, hm, hfold⟩ := exists_passed_of_readProduct hopen h.signs hread
        have hfurther := furtherProductCalls_le hm.isClosed r'
        rw [hm.depth, ← hfold] at hfurther
        simp only at hproduct hfurther
        omega
termination_by 4 * s.length

end

end Nesting

theorem sumCalls_le_nesting (s : Text) : sumCalls s ≤ nesting s + 1 := by
  have h := Nesting.sumCalls_le Nesting.isOpen_start rfl s
  rw [nesting]
  simpa [Nesting.start] using h

/-! ## Factors of an expression inside one another -/

theorem factorCalls_pos (s : Text) : 0 < factorCalls s := by
  unfold factorCalls
  split
  · exact Nat.one_pos
  · split
    · exact Nat.succ_pos _
    · split
      · exact Nat.succ_pos _
      · exact Nat.one_pos

-- As the reader goes on behind the first operand, so does the count: what is bounded from below is
-- the count for a tree together with the one for what may follow it.
mutual

theorem depth_lt_factorCalls (f : Factor) (rest : Text) :
    f.depth < factorCalls (f.text ++ rest) := by
  cases f with
  | literal n => exact factorCalls_pos _
  | group t =>
    have hsum := le_sumCalls t (endsSum_close rest).1
    rw [Factor.text, List.cons_append, List.append_assoc, List.singleton_append, factorCalls,
      if_pos rfl, Factor.depth]
    omega
  | signed sign f =>
    have hfactor := depth_lt_factorCalls f rest
    have hparen : sign.char ≠ '(' := by cases sign <;> decide
    rw [Factor.text, List.cons_append, factorCalls, if_neg hparen, Factor.depth]
    simp only [sign?_char]
    omega

theorem le_productCalls (p : Product) {rest : Text} (hrest : EndsFactor rest) :
    max (p.depth + 1) (furtherFactorCalls rest) ≤ productCalls (p.text ++ rest) := by
  cases p with
  | factor f =>
    have hfactor := depth_lt_factorCalls f rest
    obtain ⟨_, hread⟩ := found?_eq_some_iff.1 (readFactor_text f hrest)
    rw [Product.text, productCalls, hread, Product.depth]
    simp only
    omega
  | extend p op f =>
    have hproduct := le_productCalls p (endsFactor_scale op (f.text ++ rest))
    have hfactor := depth_lt_factorCalls f rest
    obtain ⟨_, hread⟩ := found?_eq_some_iff.1 (readFactor_text f hrest)
    rw [furtherFactorCalls] at hproduct
    simp only [scale?_char, hread] at hproduct
    rw [Product.text, List.append_assoc, List.cons_append, Product.depth]
    omega

theorem le_sumCalls (t : Sum) {rest : Text} (hrest : EndsProduct rest) :
    max (t.depth + 1) (furtherProductCalls rest) ≤ sumCalls (t.text ++ rest) := by
  cases t with
  | product p =>
    have hproduct := le_productCalls p hrest.1
    have hread := readProduct_text p hrest.1
    rw [extendProduct_of_endsProduct p hrest] at hread
    obtain ⟨_, hread⟩ := found?_eq_some_iff.1 hread
    rw [Sum.text, sumCalls, hread, Sum.depth]
    simp only
    omega
  | extend t op p =>
    have hsum := le_sumCalls t (endsProduct_sign op (p.text ++ rest))
    have hproduct := le_productCalls p hrest.1
    have hread := readProduct_text p hrest.1
    rw [extendProduct_of_endsProduct p hrest] at hread
    obtain ⟨_, hread⟩ := found?_eq_some_iff.1 hread
    rw [furtherProductCalls] at hsum
    simp only [sign?_char, hread] at hsum
    rw [Sum.text, List.append_assoc, List.cons_append, Sum.depth]
    omega

end

/-- While an expression is read, there is one call for a factor inside the others for every
parenthesis and every sign around its deepest literal, and one for the literal. -/
theorem sumCalls_text (t : Sum) : sumCalls t.text = t.depth + 1 := by
  have hge := le_sumCalls t endsSum_nil.1
  have hle := sumCalls_le_nesting t.text
  rw [List.append_nil] at hge
  rw [nesting_text] at hle
  omega

/-! ## The guard -/

theorem evaluateIn_eq_tooDeep_iff {α : Type} (A : Arithmetic α) {text : Text} {t : Sum}
    (h : t.text = Text.strip text) :
    evaluateIn A text = .error .tooDeep ↔ maxNesting < t.depth := by
  have hnesting : nesting (Text.strip text) = t.depth := h ▸ nesting_text t
  constructor
  · intro hrefused
    refine Nat.lt_of_not_ge fun hle => ?_
    rw [evaluateIn, parse_of_text h (hnesting.trans_le hle)] at hrefused
    simp only at hrefused
    split at hrefused <;> cases hrefused
  · intro hdeep
    have hparse : parse (Text.strip text) = .error .tooDeep := by
      rw [parse, if_neg (ne_nil_of_text h), hnesting, if_pos hdeep]
    rw [evaluateIn, hparse]

/-- The guard takes nothing off the depth that is not in it.  It bounds what the reader does on every
text, and on an expression it is the depth of the tree: an expression is refused as too deep if and
only if it is deeper than 128, whatever its length. -/
theorem nesting_guards_reading {α : Type} (A : Arithmetic α) (s : Text) :
    (∀ p, p ++ [')'] <+: s → ∀ run pending,
      (p.foldl Nesting.step .start).pending = run :: pending →
      run + 1 ≤ (p.foldl Nesting.step .start).depth) ∧
    sumCalls s ≤ nesting s + 1 ∧
    ∀ t : Sum, t.text = s → nesting s = t.depth ∧
      ∀ text, Text.strip text = s → (evaluateIn A text = .error .tooDeep ↔ 128 < t.depth) := by
  refine ⟨fun p _ run pending hpending => Nesting.le_depth_of_pending p hpending,
    sumCalls_le_nesting s, ?_⟩
  rintro t rfl
  exact ⟨nesting_text t, fun text htext => evaluateIn_eq_tooDeep_iff A htext.symm⟩

/-- Of three signs the first is an operator; the closing parenthesis counts one sign off with it. -/
theorem nesting_guards_reading_signs :
    let s := "2--(+3)".toList
    let n := "2--(+3".toList.foldl Nesting.step .start
    (n.pending = [1] ∧ 2 ≤ n.depth) ∧ sumCalls s ≤ nesting s + 1 ∧ nesting s = 3 ∧
      evaluate "2 - -(+3)".toList ≠ .error .tooDeep := by
  intro s n
  let three : Factor := .literal ⟨⟨"3".toList, by decide⟩, none⟩
  let group : Factor := .group (.product (.factor (.signed .plus three)))
  let t : Sum := .extend (.product (.factor (.literal ⟨⟨"2".toList, by decide⟩, none⟩))) .minus
    (.factor (.signed .minus group))
  obtain ⟨hcounted, hcalls, hexact⟩ := nesting_guards_reading .double s
  obtain ⟨hnesting, hrefused⟩ := hexact t rfl
  have hpending : n.pending = [1] := rfl
  refine ⟨⟨hpending, hcounted _ (List.prefix_refl s) 1 [] hpending⟩, hcalls, hnesting, ?_⟩
  exact fun h => absurd ((hrefused _ (by decide)).1 h) (by decide)

end InventoryQuery.Expression
