import InventoryQuery.Expression.Reader
import InventoryQuery.Proofs.Text.Reading
/-!
# What the expression reader reads

A reader gives back a derivation of what it takes off, and it gives back every derivation: the text
of a tree, in front of anything that cannot belong to it, is read as that tree.  So no text is
derived in two ways.
-/

namespace InventoryQuery.Expression

open Text (found? outcome outcome? found?_eq_some_iff afterChar? afterChar?_eq_some afterChar?_cons
  afterChar?_eq_none)

/-! ## What is taken off is derived -/

theorem char_of_sign? {c : Char} {sign : Sign} (h : sign? c = some sign) : sign.char = c := by
  unfold sign? at h
  split at h
  · next hc =>
    obtain rfl := Option.some.inj h
    exact hc.symm
  · split at h
    · next hc =>
      obtain rfl := Option.some.inj h
      exact hc.symm
    · cases h

theorem char_of_scale? {c : Char} {op : Scale} (h : scale? c = some op) : op.char = c := by
  unfold scale? at h
  split at h
  · next hc =>
    obtain rfl := Option.some.inj h
    exact hc.symm
  · split at h
    · next hc =>
      obtain rfl := Option.some.inj h
      exact hc.symm
    · cases h

theorem text_of_readDigits {s r : Text} {d : Digits} {hr : r.length < s.length}
    (h : readDigits s = .ok (d, ⟨r, hr⟩)) : d.text ++ r = s := by
  unfold readDigits at h
  split at h
  · simp only [Except.ok.injEq, Prod.mk.injEq, Subtype.mk.injEq] at h
    obtain ⟨rfl, rfl⟩ := h
    exact List.takeWhile_append_dropWhile
  · cases h

theorem text_of_readLiteral {s r : Text} {n : Literal} {hr : r.length < s.length}
    (h : readLiteral s = .ok (n, ⟨r, hr⟩)) : n.text ++ r = s := by
  unfold readLiteral at h
  split at h
  · cases h
  · next whole r₁ h₁ hwhole =>
    have hwhole := text_of_readDigits hwhole
    split at h
    · simp only [Except.ok.injEq, Prod.mk.injEq, Subtype.mk.injEq] at h
      obtain ⟨rfl, rfl⟩ := h
      rw [Literal.text, List.append_nil, hwhole]
    · next r₂ h₂ hpoint =>
      have hpoint := afterChar?_eq_some hpoint
      split at h
      · simp only [Except.ok.injEq, Prod.mk.injEq, Subtype.mk.injEq] at h
        obtain ⟨rfl, rfl⟩ := h
        rw [Literal.text, List.append_nil, hwhole]
      · next fraction r₃ h₃ hfraction =>
        have hfraction := text_of_readDigits hfraction
        simp only [Except.ok.injEq, Prod.mk.injEq, Subtype.mk.injEq] at h
        obtain ⟨rfl, rfl⟩ := h
        rw [Literal.text, List.append_assoc, List.cons_append, hfraction, ← hpoint, hwhole]

theorem text_of_readLiteralFactor {s r : Text} {f : Factor} {hr : r.length < s.length}
    (h : readLiteralFactor s = .ok (f, ⟨r, hr⟩)) : f.text ++ r = s := by
  unfold readLiteralFactor at h
  split at h
  · cases h
  · next n rest hliteral =>
    simp only [Except.ok.injEq, Prod.mk.injEq] at h
    obtain ⟨rfl, rfl⟩ := h
    exact text_of_readLiteral hliteral

mutual

theorem text_of_readFactor {s r : Text} {f : Factor} {hr : r.length < s.length}
    (h : readFactor s = .ok (f, ⟨r, hr⟩)) : f.text ++ r = s := by
  unfold readFactor at h
  split at h
  · exact text_of_readLiteralFactor h
  · next c s _ =>
    split at h
    · next hc =>
      split at h
      · exact text_of_readLiteralFactor h
      · next inner r₁ h₁ hinner =>
        have hinner := text_of_readSum hinner
        split at h
        · exact text_of_readLiteralFactor h
        · next r₂ h₂ hclose =>
          have hclose := afterChar?_eq_some hclose
          simp only [Except.ok.injEq, Prod.mk.injEq, Subtype.mk.injEq] at h
          obtain ⟨rfl, rfl⟩ := h
          rw [Factor.text, List.cons_append, List.append_assoc, List.singleton_append, ← hclose,
            hinner, hc]
    · split at h
      · next sign hsign =>
        split at h
        · exact text_of_readLiteralFactor h
        · next operand r₁ h₁ hoperand =>
          have hoperand := text_of_readFactor hoperand
          simp only [Except.ok.injEq, Prod.mk.injEq, Subtype.mk.injEq] at h
          obtain ⟨rfl, rfl⟩ := h
          rw [Factor.text, List.cons_append, hoperand, char_of_sign? hsign]
      · exact text_of_readLiteralFactor h
termination_by 4 * s.length

theorem text_of_readProduct {s r : Text} {p : Product} {hr : r.length < s.length}
    (h : readProduct s = .ok (p, ⟨r, hr⟩)) : p.text ++ r = s := by
  unfold readProduct at h
  split at h
  · cases h
  · next f r₁ h₁ hfactor =>
    have hfactor := text_of_readFactor hfactor
    split at h
    next q r₂ h₂ hextend =>
    have hextend := text_of_extendProduct hextend
    simp only [Except.ok.injEq, Prod.mk.injEq, Subtype.mk.injEq] at h
    obtain ⟨rfl, rfl⟩ := h
    rw [hextend, Product.text, hfactor]
termination_by 4 * s.length + 1

theorem text_of_extendProduct {s r : Text} {p q : Product} {hr : r.length ≤ s.length}
    (h : extendProduct p s = (q, ⟨r, hr⟩)) : q.text ++ r = p.text ++ s := by
  unfold extendProduct at h
  split at h
  · simp only [Prod.mk.injEq, Subtype.mk.injEq] at h
    rw [h.1, h.2]
  · next c s _ =>
    split at h
    · simp only [Prod.mk.injEq, Subtype.mk.injEq] at h
      rw [h.1, h.2]
    · next op hop =>
      split at h
      · simp only [Prod.mk.injEq, Subtype.mk.injEq] at h
        rw [h.1, h.2]
      · next f r₁ h₁ hfactor =>
        have hfactor := text_of_readFactor hfactor
        split at h
        next q' r₂ h₂ hextend =>
        have hextend := text_of_extendProduct hextend
        simp only [Prod.mk.injEq, Subtype.mk.injEq] at h
        obtain ⟨rfl, rfl⟩ := h
        rw [hextend, Product.text, List.append_assoc, List.cons_append, hfactor,
          char_of_scale? hop]
termination_by 4 * s.length

theorem text_of_readSum {s r : Text} {t : Sum} {hr : r.length < s.length}
    (h : readSum s = .ok (t, ⟨r, hr⟩)) : t.text ++ r = s := by
  unfold readSum at h
  split at h
  · cases h
  · next p r₁ h₁ hproduct =>
    have hproduct := text_of_readProduct hproduct
    split at h
    next q r₂ h₂ hextend =>
    have hextend := text_of_extendSum hextend
    simp only [Except.ok.injEq, Prod.mk.injEq, Subtype.mk.injEq] at h
    obtain ⟨rfl, rfl⟩ := h
    rw [hextend, Sum.text, hproduct]
termination_by 4 * s.length + 2

theorem text_of_extendSum {s r : Text} {t u : Sum} {hr : r.length ≤ s.length}
    (h : extendSum t s = (u, ⟨r, hr⟩)) : u.text ++ r = t.text ++ s := by
  unfold extendSum at h
  split at h
  · simp only [Prod.mk.injEq, Subtype.mk.injEq] at h
    rw [h.1, h.2]
  · next c s _ =>
    split at h
    · simp only [Prod.mk.injEq, Subtype.mk.injEq] at h
      rw [h.1, h.2]
    · next op hop =>
      split at h
      · simp only [Prod.mk.injEq, Subtype.mk.injEq] at h
        rw [h.1, h.2]
      · next p r₁ h₁ hproduct =>
        have hproduct := text_of_readProduct hproduct
        split at h
        next u' r₂ h₂ hextend =>
        have hextend := text_of_extendSum hextend
        simp only [Prod.mk.injEq, Subtype.mk.injEq] at h
        obtain ⟨rfl, rfl⟩ := h
        rw [hextend, Sum.text, List.append_assoc, List.cons_append, hproduct,
          char_of_sign? hop]
termination_by 4 * s.length

end

/-! ## What is derived is taken off -/

/-- The text does not start with what could belong to a factor in front of it. -/
def EndsFactor (rest : Text) : Prop := ∀ c ∈ rest.head?, c.isDigit = false ∧ c ≠ '.'

/-- The text does not start with what could belong to a product in front of it. -/
def EndsProduct (rest : Text) : Prop := EndsFactor rest ∧ ∀ c ∈ rest.head?, scale? c = none

/-- The text does not start with what could belong to a sum in front of it. -/
def EndsSum (rest : Text) : Prop := EndsProduct rest ∧ ∀ c ∈ rest.head?, sign? c = none

theorem endsSum_nil : EndsSum [] := by simp [EndsSum, EndsProduct, EndsFactor]

theorem endsSum_close (rest : Text) : EndsSum (')' :: rest) := by
  simp [EndsSum, EndsProduct, EndsFactor, scale?, sign?]

theorem endsProduct_sign (sign : Sign) (rest : Text) : EndsProduct (sign.char :: rest) := by
  cases sign <;> simp [EndsProduct, EndsFactor, Sign.char, scale?]

theorem endsFactor_scale (op : Scale) (rest : Text) : EndsFactor (op.char :: rest) := by
  cases op <;> simp [EndsFactor, Scale.char]

@[simp] theorem sign?_char (sign : Sign) : sign? sign.char = some sign := by cases sign <;> rfl

@[simp] theorem scale?_char (op : Scale) : scale? op.char = some op := by cases op <;> rfl

theorem Digits.ne_nil (d : Digits) : d.text ≠ [] := by
  intro hnil
  have hdigits := d.isDigits
  rw [hnil] at hdigits
  cases hdigits

theorem Digits.isDigit_of_mem (d : Digits) {c : Char} (hc : c ∈ d.text) : c.isDigit = true := by
  have hdigits := d.isDigits
  rw [Numeral.isDigits, Bool.and_eq_true, List.all_eq_true] at hdigits
  exact hdigits.2 c hc

theorem Literal.exists_text_eq_cons (n : Literal) : ∃ c s, n.text = c :: s ∧ c.isDigit = true := by
  obtain ⟨c, s, hwhole⟩ := List.exists_cons_of_ne_nil n.whole.ne_nil
  refine ⟨c, _, by rw [Literal.text, hwhole, List.cons_append], ?_⟩
  exact n.whole.isDigit_of_mem (hwhole ▸ List.mem_cons_self)

theorem readDigits_text (d : Digits) {rest : Text} (hrest : ∀ c ∈ rest.head?, c.isDigit = false) :
    found? (readDigits (d.text ++ rest)) = some (d, rest) := by
  have hdigits : ∀ c ∈ d.text, c.isDigit = true := fun c hc => d.isDigit_of_mem hc
  have htake := Text.takeWhile_append hdigits hrest
  have hdrop := Text.dropWhile_append hdigits hrest
  unfold readDigits
  rw [dif_pos (htake.symm ▸ d.isDigits)]
  simp only [found?, Except.toOption, outcome?, Option.map_some, htake, hdrop]

theorem readLiteral_text (n : Literal) {rest : Text} (hrest : EndsFactor rest) :
    found? (readLiteral (n.text ++ rest)) = some (n, rest) := by
  have hdigit : ∀ c ∈ rest.head?, c.isDigit = false := fun c hc => (hrest c hc).1
  obtain ⟨whole, fraction⟩ := n
  unfold readLiteral
  cases fraction with
  | none =>
    obtain ⟨h, hwhole⟩ := found?_eq_some_iff.1 (readDigits_text whole hdigit)
    have hpoint : afterChar? '.' rest = none := afterChar?_eq_none fun c hc => (hrest c hc).2
    rw [Literal.text, List.append_nil, hwhole]
    simp only [hpoint]
    rfl
  | some fraction =>
    have hpoint : ∀ c ∈ ('.' :: (fraction.text ++ rest)).head?, c.isDigit = false := by simp
    obtain ⟨h, hwhole⟩ := found?_eq_some_iff.1 (readDigits_text whole hpoint)
    obtain ⟨h', hfraction⟩ := found?_eq_some_iff.1 (readDigits_text fraction hdigit)
    rw [Literal.text, List.append_assoc, List.cons_append, hwhole]
    simp only [afterChar?_cons, hfraction]
    rfl

theorem readFactor_of_readLiteral {c : Char} {s rest : Text} {n : Literal}
    (hc : c.isDigit = true) (h : found? (readLiteral (c :: s)) = some (n, rest)) :
    found? (readFactor (c :: s)) = some (.literal n, rest) := by
  obtain ⟨_, hliteral⟩ := found?_eq_some_iff.1 h
  have hparen : c ≠ '(' := by
    rintro rfl
    cases hc
  have hsign : sign? c = none := by
    unfold sign?
    split
    · next heq => cases heq ▸ hc
    · split
      · next heq => cases heq ▸ hc
      · rfl
  rw [readFactor, if_neg hparen]
  simp only [hsign, readLiteralFactor, hliteral]
  rfl

theorem readFactor_group {s rest : Text} {t : Sum}
    (h : found? (readSum s) = some (t, ')' :: rest)) :
    found? (readFactor ('(' :: s)) = some (.group t, rest) := by
  obtain ⟨_, hsum⟩ := found?_eq_some_iff.1 h
  rw [readFactor, if_pos rfl, hsum]
  simp only [afterChar?_cons]
  rfl

theorem readFactor_signed (sign : Sign) {s rest : Text} {f : Factor}
    (h : found? (readFactor s) = some (f, rest)) :
    found? (readFactor (sign.char :: s)) = some (.signed sign f, rest) := by
  obtain ⟨_, hfactor⟩ := found?_eq_some_iff.1 h
  have hparen : sign.char ≠ '(' := by cases sign <;> decide
  rw [readFactor, if_neg hparen]
  simp only [sign?_char, hfactor]
  rfl

theorem readProduct_of_readFactor {s rest : Text} {f : Factor}
    (h : found? (readFactor s) = some (f, rest)) :
    found? (readProduct s) = some (outcome (extendProduct (.factor f) rest)) := by
  obtain ⟨_, hfactor⟩ := found?_eq_some_iff.1 h
  rw [readProduct, hfactor]
  rfl

theorem extendProduct_scale (p : Product) (op : Scale) {s rest : Text} {f : Factor}
    (h : found? (readFactor s) = some (f, rest)) :
    outcome (extendProduct p (op.char :: s)) = outcome (extendProduct (.extend p op f) rest) := by
  obtain ⟨_, hfactor⟩ := found?_eq_some_iff.1 h
  rw [extendProduct.eq_def p (op.char :: s)]
  simp only [scale?_char, hfactor]
  rfl

theorem extendProduct_of_endsProduct (p : Product) {rest : Text} (hrest : EndsProduct rest) :
    outcome (extendProduct p rest) = (p, rest) := by
  cases rest with
  | nil =>
    rw [extendProduct]
    rfl
  | cons c rest =>
    have hc : scale? c = none := hrest.2 c rfl
    unfold extendProduct
    simp only [hc]
    rfl

theorem readSum_of_readProduct {s rest : Text} {p : Product}
    (h : found? (readProduct s) = some (p, rest)) :
    found? (readSum s) = some (outcome (extendSum (.product p) rest)) := by
  obtain ⟨_, hproduct⟩ := found?_eq_some_iff.1 h
  rw [readSum, hproduct]
  rfl

theorem extendSum_sign (t : Sum) (op : Sign) {s rest : Text} {p : Product}
    (h : found? (readProduct s) = some (p, rest)) :
    outcome (extendSum t (op.char :: s)) = outcome (extendSum (.extend t op p) rest) := by
  obtain ⟨_, hproduct⟩ := found?_eq_some_iff.1 h
  rw [extendSum.eq_def t (op.char :: s)]
  simp only [sign?_char, hproduct]
  rfl

theorem extendSum_of_endsSum (t : Sum) {rest : Text} (hrest : EndsSum rest) :
    outcome (extendSum t rest) = (t, rest) := by
  cases rest with
  | nil =>
    rw [extendSum]
    rfl
  | cons c rest =>
    have hc : sign? c = none := hrest.2 c rfl
    unfold extendSum
    simp only [hc]
    rfl

-- A sum or product is not read as one piece inside a longer one: the reader has its first operand
-- in hand and goes on.  So the induction says where the reader stands after the text of a tree.
mutual

theorem readFactor_text (f : Factor) {rest : Text} (hrest : EndsFactor rest) :
    found? (readFactor (f.text ++ rest)) = some (f, rest) := by
  cases f with
  | literal n =>
    obtain ⟨c, s, htext, hc⟩ := n.exists_text_eq_cons
    have hliteral := readLiteral_text n hrest
    rw [htext, List.cons_append] at hliteral
    rw [Factor.text, htext, List.cons_append]
    exact readFactor_of_readLiteral hc hliteral
  | group t =>
    have hsum := readSum_text t (endsSum_close rest).1
    rw [extendSum_of_endsSum t (endsSum_close rest)] at hsum
    rw [Factor.text, List.cons_append, List.append_assoc, List.singleton_append]
    exact readFactor_group hsum
  | signed sign f =>
    rw [Factor.text, List.cons_append]
    exact readFactor_signed sign (readFactor_text f hrest)

theorem readProduct_text (p : Product) {rest : Text} (hrest : EndsFactor rest) :
    found? (readProduct (p.text ++ rest)) = some (outcome (extendProduct p rest)) := by
  cases p with
  | factor f =>
    rw [Product.text]
    exact readProduct_of_readFactor (readFactor_text f hrest)
  | extend p op f =>
    rw [Product.text, List.append_assoc, List.cons_append,
      readProduct_text p (endsFactor_scale op (f.text ++ rest)),
      extendProduct_scale p op (readFactor_text f hrest)]

theorem readSum_text (t : Sum) {rest : Text} (hrest : EndsProduct rest) :
    found? (readSum (t.text ++ rest)) = some (outcome (extendSum t rest)) := by
  cases t with
  | product p =>
    have hproduct := readProduct_text p hrest.1
    rw [extendProduct_of_endsProduct p hrest] at hproduct
    rw [Sum.text]
    exact readSum_of_readProduct hproduct
  | extend t op p =>
    have hproduct := readProduct_text p hrest.1
    rw [extendProduct_of_endsProduct p hrest] at hproduct
    rw [Sum.text, List.append_assoc, List.cons_append,
      readSum_text t (endsProduct_sign op (p.text ++ rest)), extendSum_sign t op hproduct]

end

/-- A text that is derived is read wholly, as what it is derived from. -/
theorem found?_readSum_text (t : Sum) : found? (readSum t.text) = some (t, []) := by
  have hsum := readSum_text t endsSum_nil.1
  rwa [List.append_nil, extendSum_of_endsSum t endsSum_nil] at hsum

/-- No text is derived in two ways. -/
theorem Sum.text_injective {t u : Sum} (h : t.text = u.text) : t = u := by
  have ht := found?_readSum_text t
  rw [h, found?_readSum_text u] at ht
  exact (Prod.mk.inj (Option.some.inj ht)).1.symm

end InventoryQuery.Expression
