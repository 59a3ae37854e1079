import Fboss.Lib.Bytes
import Fboss.Lib.ExceptSpec

/-!
# Cursors over chains of buffers

A `folly::io::Cursor` reads a chain of buffers (`IOBuf`s) front to back. It
points into one buffer of the chain; `length()` is what is left of that buffer
alone, `totalLength()` what is left of the whole chain, and `isAtEnd()` holds
when nothing is left of the chain.

A read of `n` bytes takes the fast path when the current buffer has them:
the cursor moves inside the buffer and stays in it, even when the read ends
exactly at the buffer's end. Otherwise the slow path copies across buffers, on
to the next one each time the current one runs out, and at the end moves on
to the next buffer if the current one is then empty; with fewer than `n` bytes
left in the chain it throws `std::out_of_range`. `skip` is the same but for its
fast path, taken only when the skip ends strictly inside the buffer.

Whatever the path, a read of `n` bytes returns the first `n` bytes that are
left and leaves the rest (`pull_of_remaining`), and fails when fewer are
left. Only `length()` sees how the chain is cut into buffers.
-/

namespace Folly

/-- A cursor into a chain of buffers: the bytes of the current buffer not yet
read, and the buffers after it. -/
structure Cursor where
  crt : List UInt8
  next : List (List UInt8)
  deriving DecidableEq, Repr

namespace Cursor

/-- A cursor at the start of a chain. -/
def ofChain : List (List UInt8) → Cursor
  | [] => ⟨[], []⟩
  | b :: bs => ⟨b, bs⟩

/-- A cursor at the start of one buffer. -/
def ofBytes (b : List UInt8) : Cursor :=
  ⟨b, []⟩

/-- The bytes left in the chain. -/
def remaining (c : Cursor) : List UInt8 :=
  c.crt ++ c.next.flatten

/-- `length()`: the bytes left in the current buffer. -/
def length (c : Cursor) : Nat :=
  c.crt.length

/-- `totalLength()`. -/
def totalLength (c : Cursor) : Nat :=
  c.remaining.length

/-- `isAtEnd()`. -/
def isAtEnd (c : Cursor) : Bool :=
  c.remaining.isEmpty

/-- `canAdvance(amount)`. -/
def canAdvance (c : Cursor) (amount : Nat) : Bool :=
  amount ≤ c.totalLength

/-- `tryAdvanceBuffer()`: on to the next buffer, if there is one. -/
def tryAdvanceBuffer : Cursor → Option Cursor
  | ⟨_, b :: bs⟩ => some ⟨b, bs⟩
  | ⟨_, []⟩ => none

/-- `advanceBufferIfEmpty()`. -/
def advanceBufferIfEmpty (c : Cursor) : Cursor :=
  if c.crt.isEmpty then c.tryAdvanceBuffer.getD c else c

/-- The slow path of a read of `n` bytes (`pullAtMostSlow`, which throws on a
short read): copy what the current buffer has and go on to the next one, until
the current buffer has what is still to read. -/
def pullSlow (n : Nat) (crt : List UInt8) : List (List UInt8) → Except String (List UInt8 × Cursor)
  | [] =>
    if n ≤ crt.length then .ok (crt.take n, advanceBufferIfEmpty ⟨crt.drop n, []⟩)
    else .error "underflow"
  | b :: bs =>
    if n ≤ crt.length then .ok (crt.take n, advanceBufferIfEmpty ⟨crt.drop n, b :: bs⟩)
    else (pullSlow (n - crt.length) b bs).map fun r => (crt ++ r.1, r.2)

/-- `pull(buf, n)`, `read<T>()` and `readFixedString(n)`: the next `n` bytes. -/
def pull (n : Nat) (c : Cursor) : Except String (List UInt8 × Cursor) :=
  if n ≤ c.crt.length then .ok (c.crt.take n, ⟨c.crt.drop n, c.next⟩)
  else pullSlow n c.crt c.next

/-- `skip(n)` and `operator+=`. -/
def skip (n : Nat) (c : Cursor) : Except String Cursor :=
  if n < c.crt.length then .ok ⟨c.crt.drop n, c.next⟩
  else (pullSlow n c.crt c.next).map Prod.snd

/-- `read<uint8_t>()`. -/
def read8 (c : Cursor) : Except String (UInt8 × Cursor) :=
  (c.pull 1).map fun r => (r.1.headD 0, r.2)

/-- `readBE<uint16_t>()`. -/
def readBE16 (c : Cursor) : Except String (UInt16 × Cursor) :=
  (c.pull 2).map fun r => (Bytes.ofBE16 (r.1.getD 0 0) (r.1.getD 1 0), r.2)

/-- `readBE<uint32_t>()`. -/
def readBE32 (c : Cursor) : Except String (UInt32 × Cursor) :=
  (c.pull 4).map fun r =>
    (Bytes.ofBE32 (r.1.getD 0 0) (r.1.getD 1 0) (r.1.getD 2 0) (r.1.getD 3 0), r.2)

/-! ### Reads see the bytes left in the chain -/

@[simp] theorem remaining_ofBytes (b : List UInt8) : (ofBytes b).remaining = b := by
  simp [ofBytes, remaining]

@[simp] theorem remaining_ofChain (bs : List (List UInt8)) : (ofChain bs).remaining = bs.flatten := by
  cases bs <;> simp [ofChain, remaining]

@[simp] theorem remaining_mk (crt : List UInt8) (next : List (List UInt8)) :
    (Cursor.mk crt next).remaining = crt ++ next.flatten := rfl

@[simp] theorem remaining_advanceBufferIfEmpty (c : Cursor) :
    c.advanceBufferIfEmpty.remaining = c.remaining := by
  rcases c with ⟨crt, _ | ⟨b, bs⟩⟩
  · simp [advanceBufferIfEmpty, tryAdvanceBuffer]
  · by_cases h : crt = [] <;> simp [advanceBufferIfEmpty, tryAdvanceBuffer, h]

/-- `c'` is `c` with the `n` bytes `bs` taken off the front of what is left. -/
def Takes (c : Cursor) (n : Nat) (bs : List UInt8) (c' : Cursor) : Prop :=
  bs.length = n ∧ bs ++ c'.remaining = c.remaining

/-- What a read that fails says: fewer bytes are left than it asked for. -/
def Underflow (c : Cursor) (n : Nat) (e : String) : Prop :=
  e = "underflow" ∧ c.totalLength < n

/-- The slow path takes the first `n` bytes left, or underflows. -/
theorem pullSlow_spec (n : Nat) (crt : List UInt8) (next : List (List UInt8)) :
    Except.Spec (Underflow ⟨crt, next⟩ n) (fun r => Takes ⟨crt, next⟩ n r.1 r.2)
      (pullSlow n crt next) := by
  induction next generalizing n crt with
  | nil =>
    unfold pullSlow
    split_ifs with hn
    · refine ⟨by simp [hn], ?_⟩
      rw [remaining_advanceBufferIfEmpty]
      simp
    · exact ⟨rfl, by simp [totalLength, remaining]; omega⟩
  | cons b bs ih =>
    unfold pullSlow
    split_ifs with hn
    · refine ⟨by simp [hn], ?_⟩
      rw [remaining_advanceBufferIfEmpty]
      simp [← List.append_assoc]
    · -- the current buffer is copied whole, and the rest is read from the next one
      have hrec := ih (n - crt.length) b
      cases hq : pullSlow (n - crt.length) b bs with
      | error e =>
        rw [hq] at hrec
        obtain ⟨he, hlt⟩ := hrec
        refine ⟨he, ?_⟩
        simp only [totalLength, remaining, List.flatten_cons, List.length_append] at hlt ⊢
        omega
      | ok r =>
        rw [hq] at hrec
        obtain ⟨hlen, hrem⟩ := hrec
        refine ⟨?_, ?_⟩
        · simp only [List.length_append, hlen]
          omega
        · simp only [remaining_mk, List.flatten_cons] at hrem ⊢
          simp [hrem]

/-- A read takes the first `n` bytes left, or underflows. -/
theorem pull_spec (n : Nat) (c : Cursor) :
    Except.Spec (Underflow c n) (fun r => Takes c n r.1 r.2) (c.pull n) := by
  unfold pull
  split_ifs with hn
  · exact ⟨by simp [hn], by simp [← List.append_assoc, remaining]⟩
  · exact pullSlow_spec n c.crt c.next

/-- A skip takes the first `n` bytes left, or underflows. -/
theorem skip_spec (n : Nat) (c : Cursor) :
    Except.Spec (Underflow c n) (fun c' => ∃ bs, Takes c n bs c') (c.skip n) := by
  unfold skip
  split_ifs with hn
  · exact ⟨c.crt.take n, by simp; omega, by simp [remaining, ← List.append_assoc]⟩
  · exact (pullSlow_spec n c.crt c.next).map fun r hr => ⟨r.1, hr⟩

/-- Taking the length of the bytes at the front of what is left takes them and
leaves the rest. -/
theorem Takes.eq {c c' : Cursor} {bs bs' rest : List UInt8} (h : Takes c bs.length bs' c')
    (hc : c.remaining = bs ++ rest) : bs' = bs ∧ c'.remaining = rest := by
  obtain ⟨hlen, hrem⟩ := h
  rw [hc] at hrem
  exact List.append_inj hrem hlen

/-- A read of the length of the bytes at the front of what is left returns
them and leaves the rest. -/
theorem pull_of_remaining {c : Cursor} {bs rest : List UInt8} (h : c.remaining = bs ++ rest) :
    ∃ c', c.pull bs.length = .ok (bs, c') ∧ c'.remaining = rest := by
  have hspec := pull_spec bs.length c
  cases hp : c.pull bs.length with
  | error e =>
    rw [hp] at hspec
    have := hspec.2
    simp [totalLength, h] at this
  | ok r =>
    rw [hp] at hspec
    obtain ⟨h1, h2⟩ := hspec.eq h
    exact ⟨r.2, by rw [← h1], h2⟩

/-- A skip of the length of the bytes at the front of what is left leaves the
rest. -/
theorem skip_of_remaining {c : Cursor} {bs rest : List UInt8} (h : c.remaining = bs ++ rest) :
    ∃ c', c.skip bs.length = .ok c' ∧ c'.remaining = rest := by
  have hspec := skip_spec bs.length c
  cases hp : c.skip bs.length with
  | error e =>
    rw [hp] at hspec
    have := hspec.2
    simp [totalLength, h] at this
  | ok c' =>
    rw [hp] at hspec
    obtain ⟨bs', hbs'⟩ := hspec
    exact ⟨c', rfl, (hbs'.eq h).2⟩

/-- Taking `n` bytes leaves `n` fewer. -/
theorem Takes.totalLength_eq {c c' : Cursor} {n : Nat} {bs : List UInt8} (h : Takes c n bs c') :
    c'.totalLength + n = c.totalLength := by
  have := congrArg List.length h.2
  simp only [List.length_append, h.1] at this
  simp only [totalLength]
  omega

/-! ### Reads of numbers -/

theorem read8_of_remaining {c : Cursor} {b : UInt8} {rest : List UInt8} (h : c.remaining = b :: rest) :
    ∃ c', c.read8 = .ok (b, c') ∧ c'.remaining = rest := by
  obtain ⟨c', hp, hr⟩ := @pull_of_remaining c [b] rest h
  have hp' : c.pull 1 = .ok ([b], c') := hp
  exact ⟨c', by simp [read8, hp', Except.map], hr⟩

theorem readBE16_of_remaining {c : Cursor} {hi lo : UInt8} {rest : List UInt8}
    (h : c.remaining = hi :: lo :: rest) :
    ∃ c', c.readBE16 = .ok (Bytes.ofBE16 hi lo, c') ∧ c'.remaining = rest := by
  obtain ⟨c', hp, hr⟩ := @pull_of_remaining c [hi, lo] rest h
  have hp' : c.pull 2 = .ok ([hi, lo], c') := hp
  exact ⟨c', by simp [readBE16, hp', Except.map], hr⟩

/-- A read of a 16-bit value written high byte first reads it back. -/
theorem readBE16_be16 {c : Cursor} {x : UInt16} {rest : List UInt8} (h : c.remaining = Bytes.be16 x ++ rest) :
    ∃ c', c.readBE16 = .ok (x, c') ∧ c'.remaining = rest := by
  obtain ⟨c', hp, hr⟩ := @readBE16_of_remaining c _ _ rest h
  exact ⟨c', by rw [hp, Bytes.ofBE16_be16], hr⟩

/-! ### One buffer

Over a single buffer a read takes the fast path, or, when a skip ends at the
buffer's end, a slow path with no buffer to move on to: the cursor stays a
cursor over one buffer, at the bytes that are left. -/

theorem pull_ofBytes (bs rest : List UInt8) :
    (ofBytes (bs ++ rest)).pull bs.length = .ok (bs, ofBytes rest) := by
  simp [pull, ofBytes]

theorem skip_ofBytes (bs rest : List UInt8) :
    (ofBytes (bs ++ rest)).skip bs.length = .ok (ofBytes rest) := by
  unfold skip
  split_ifs with h
  · simp [ofBytes]
  · -- the skip ends at the buffer's end, and there is no next buffer
    have hrest : rest = [] := by
      simp only [ofBytes, List.length_append] at h
      exact List.eq_nil_of_length_eq_zero (by omega)
    subst hrest
    simp [pullSlow, ofBytes, advanceBufferIfEmpty, tryAdvanceBuffer, Except.map]

theorem read8_ofBytes (b : UInt8) (rest : List UInt8) :
    (ofBytes (b :: rest)).read8 = .ok (b, ofBytes rest) := by
  have h := pull_ofBytes [b] rest
  simp only [List.length_singleton, List.singleton_append] at h
  simp [read8, h, Except.map]

theorem readBE16_ofBytes (hi lo : UInt8) (rest : List UInt8) :
    (ofBytes (hi :: lo :: rest)).readBE16 = .ok (Bytes.ofBE16 hi lo, ofBytes rest) := by
  have h := pull_ofBytes [hi, lo] rest
  simp only [List.length_cons, List.length_nil, List.cons_append, List.nil_append] at h
  simp [readBE16, h, Except.map]

theorem readBE32_ofBytes (b0 b1 b2 b3 : UInt8) (rest : List UInt8) :
    (ofBytes (b0 :: b1 :: b2 :: b3 :: rest)).readBE32 = .ok (Bytes.ofBE32 b0 b1 b2 b3, ofBytes rest) := by
  have h := pull_ofBytes [b0, b1, b2, b3] rest
  simp only [List.length_cons, List.length_nil, List.cons_append, List.nil_append] at h
  simp [readBE32, h, Except.map]

/-! ### What a read leaves

Each read that succeeds leaves as many bytes fewer as it reads; these are
what a loop needs to know of its body to end (`Reads` below). -/

theorem pull_totalLength (n : Nat) (c : Cursor) :
    Except.Spec (fun _ => True) (fun r => r.2.totalLength + n = c.totalLength) (c.pull n) :=
  ((pull_spec n c).mono_error fun _ _ => trivial).mono fun _ hr => hr.totalLength_eq

theorem skip_totalLength (n : Nat) (c : Cursor) :
    Except.Spec (fun _ => True) (fun c' => c'.totalLength + n = c.totalLength) (c.skip n) :=
  ((skip_spec n c).mono_error fun _ _ => trivial).mono fun _ ⟨_, hr⟩ => hr.totalLength_eq

theorem read8_totalLength (c : Cursor) :
    Except.Spec (fun _ => True) (fun r => r.2.totalLength + 1 = c.totalLength) c.read8 :=
  (pull_totalLength 1 c).map fun _ hr => hr

theorem readBE16_totalLength (c : Cursor) :
    Except.Spec (fun _ => True) (fun r => r.2.totalLength + 2 = c.totalLength) c.readBE16 :=
  (pull_totalLength 2 c).map fun _ hr => hr

/-- A read of two bytes fails only when fewer are left. -/
theorem readBE16_spec (c : Cursor) :
    Except.Spec (fun _ => c.totalLength < 2) (fun r => r.2.totalLength + 2 = c.totalLength) c.readBE16 :=
  ((pull_spec 2 c).mono_error fun _ h => h.2).map fun _ hr => hr.totalLength_eq

theorem readBE32_totalLength (c : Cursor) :
    Except.Spec (fun _ => True) (fun r => r.2.totalLength + 4 = c.totalLength) c.readBE32 :=
  (pull_totalLength 4 c).map fun _ hr => hr

/-! ### Loops that read

A `while` loop over a cursor is run with a bound on its turns, `fuel`. A body
that reads at least one byte on each turn takes fewer turns than there are
bytes left, so `whileLoop`, whose bound is one more than that, never runs out
and unfolds as the loop does (`whileLoop_eq`). -/

section Loop

variable {σ : Type*} (cond : σ → Cursor → Bool) (body : σ → Cursor → Except String (σ × Cursor))

/-- `while (cond(s, cursor)) { body(s, cursor); }`, for at most `fuel` turns. -/
def loop : Nat → σ → Cursor → Except String (σ × Cursor)
  | 0, _, _ => .error "loop"
  | fuel + 1, s, c =>
    if cond s c then body s c >>= fun r => loop fuel r.1 r.2 else .ok (s, c)

/-- The loop with one turn more than there are bytes left. -/
def whileLoop (s : σ) (c : Cursor) : Except String (σ × Cursor) :=
  loop cond body (c.totalLength + 1) s c

/-- Every turn of the body reads at least one byte. -/
def Reads : Prop :=
  ∀ s c r, body s c = .ok r → r.2.totalLength < c.totalLength

variable {cond body}

/-- With more turns than bytes left, the bound does not matter. -/
theorem loop_eq_of_lt (hb : Reads body) :
    ∀ (fuel fuel' : Nat) (s : σ) (c : Cursor), c.totalLength < fuel → c.totalLength < fuel' →
      loop cond body fuel s c = loop cond body fuel' s c
  | 0, _, _, _, h, _ => absurd h (Nat.not_lt_zero _)
  | _ + 1, 0, _, _, _, h' => absurd h' (Nat.not_lt_zero _)
  | fuel + 1, fuel' + 1, s, c, h, h' => by
    simp only [loop]
    split_ifs
    · cases hbody : body s c with
      | error e => rfl
      | ok r =>
        -- the turn read a byte, so the rest of the loop has one turn less to take
        have hr := hb s c r hbody
        exact loop_eq_of_lt hb fuel fuel' r.1 r.2 (by omega) (by omega)
    · rfl

/-- The loop unfolds as a `while` loop. -/
theorem whileLoop_eq (hb : Reads body) (s : σ) (c : Cursor) :
    whileLoop cond body s c =
      if cond s c then body s c >>= fun r => whileLoop cond body r.1 r.2 else .ok (s, c) := by
  rw [whileLoop, loop]
  split_ifs
  · cases hbody : body s c with
    | error e => rfl
    | ok r =>
      have hr := hb s c r hbody
      exact loop_eq_of_lt hb _ _ r.1 r.2 (by omega) (by omega)
  · rfl

/-- The invariant rule of loops: a property of the state that every turn of
the body keeps holds when the loop ends without an error. -/
theorem loop_invariant (I : σ → Prop)
    (hbody : ∀ s c, I s → Except.Spec (fun _ => True) (fun r => I r.1) (body s c)) :
    ∀ (fuel : Nat) (s : σ) (c : Cursor), I s →
      Except.Spec (fun _ => True) (fun r => I r.1) (loop cond body fuel s c)
  | 0, _, _, _ => trivial
  | fuel + 1, s, c, hs => by
    simp only [loop]
    split_ifs
    · exact (hbody s c hs).bind fun r hr => loop_invariant I hbody fuel r.1 r.2 hr
    · exact hs

theorem whileLoop_invariant (I : σ → Prop)
    (hbody : ∀ s c, I s → Except.Spec (fun _ => True) (fun r => I r.1) (body s c))
    {s : σ} (hs : I s) (c : Cursor) :
    Except.Spec (fun _ => True) (fun r => I r.1) (whileLoop cond body s c) :=
  loop_invariant I hbody _ s c hs

end Loop

end Cursor

end Folly
