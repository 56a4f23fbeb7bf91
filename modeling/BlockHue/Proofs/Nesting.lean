import BlockHue.Proofs.Depth

/-! Nesting with an explicit stack. The reference machine keeps the open blocks themselves, counts
the open brackets and remembers whether it is inside a region, where `Depth.State` has one counter
and one mode. Main statement: both give every token of a stream the same slot, and a keyword that
closes a block gets the slot of the keyword that opened it. -/
namespace BlockHue
namespace Nesting

/-- An open block: the position of its opening keyword in the stream, and the slot given to it. -/
structure Block where
  opener : Nat
  slot : Nat
  deriving DecidableEq, Repr

structure Machine where
  /-- The innermost block first. -/
  blocks : List Block := []
  brackets : Nat := 0
  ignoring : Bool := false
  deriving DecidableEq, Repr

/-- What a token comes to: its slot if it is coloured, and the opener of the block
that it closes. -/
structure Visit where
  slot : Option Nat := none
  closes : Option Nat := none
  deriving DecidableEq, Repr

namespace Machine

/-- A keyword outside regions and brackets. -/
def visitBlock (m : Machine) (slots position : Nat) : Category → Visit × Machine
  | .openBlock =>
    let slot := m.blocks.length % slots
    ({ slot := some slot }, { m with blocks := ⟨position, slot⟩ :: m.blocks })
  | .closeBlock =>
    match m.blocks with
    | [] => ({ slot := some 0 }, m)
    | b :: bs => (⟨some b.slot, some b.opener⟩, { m with blocks := bs })
  | .neutral => ({ slot := m.blocks.head?.map Block.slot }, m)
  | _ => ({}, m)

def step (m : Machine) (slots position : Nat) (c : Category) : Visit × Machine :=
  if m.ignoring then ({}, if c = .closeIgnore then { m with ignoring := false } else m)
  else
    match c with
    | .openIgnore => ({}, { m with brackets := 0, ignoring := true })
    | .closeIgnore => ({}, m)
    | .openComprehension => ({}, { m with brackets := m.brackets + 1 })
    | .closeComprehension => ({}, { m with brackets := m.brackets - 1 })
    | keyword =>
      if 0 < m.brackets then ({ slot := some ((m.blocks.length + 1) % slots) }, m)
      else m.visitBlock slots position keyword

/-- The visits of a stream whose first token has the given position. -/
def visits (slots : Nat) : Machine → (position : Nat) → List Token → List Visit
  | _, _, [] => []
  | m, position, t :: ts =>
    (m.step slots position t.category).1 :: visits slots (m.step slots position t.category).2
      (position + 1) ts

/-- The state of the counting machine that stands for a stack. -/
def state (m : Machine) : Depth.State where
  mode := if m.ignoring then .ignore else if m.brackets = 0 then .default
    else .comprehension m.brackets
  depth := m.blocks.length

end Machine

def assignments : List Token → List Visit → List Assignment
  | t :: ts, v :: vs =>
    (v.slot.map fun slot => ⟨t.start, t.length, slot⟩).toList ++ assignments ts vs
  | _, _ => []

/-- Every block has the slot of the number of blocks around it. -/
def Leveled (slots : Nat) : List Block → Prop
  | [] => True
  | b :: bs => b.slot = bs.length % slots ∧ Leveled slots bs

/-- What every step keeps: each block has the slot of its level, and inside a region no
bracket is counted. -/
structure Sound (slots : Nat) (m : Machine) : Prop where
  leveled : Leveled slots m.blocks
  unbracketed : m.ignoring = true → m.brackets = 0

variable {slots : Nat} {m : Machine}

lemma sound_start (slots : Nat) : Sound slots {} := ⟨trivial, by simp⟩

lemma leveled_visitBlock (h : Leveled slots m.blocks) (position : Nat) (c : Category) :
    Leveled slots (m.visitBlock slots position c).2.blocks := by
  cases c with
  | openBlock => exact ⟨rfl, h⟩
  | closeBlock =>
    rcases hb : m.blocks with _ | ⟨b, bs⟩
    · simpa [Machine.visitBlock, hb] using h
    · rw [hb] at h
      simpa [Machine.visitBlock, hb] using h.2
  | _ => exact h

lemma visitBlock_ignoring (m : Machine) (position : Nat) (c : Category) :
    (m.visitBlock slots position c).2.ignoring = m.ignoring := by
  cases c with
  | closeBlock => rcases hb : m.blocks with _ | ⟨b, bs⟩ <;> simp [Machine.visitBlock, hb]
  | _ => rfl

lemma sound_step (h : Sound slots m) (position : Nat) (c : Category) :
    Sound slots (m.step slots position c).2 := by
  have hblock : Sound slots (m.visitBlock slots position c).2 ∨ m.ignoring = true := by
    cases hi : m.ignoring with
    | true => exact .inr rfl
    | false =>
      refine .inl ⟨leveled_visitBlock h.leveled position c, ?_⟩
      simp [visitBlock_ignoring, hi]
  unfold Machine.step
  split
  next hi => split <;> exact ⟨h.leveled, fun _ => h.unbracketed hi⟩
  next hi =>
    have hb := hblock.resolve_right hi
    cases c with
    | openIgnore => exact ⟨h.leveled, fun _ => rfl⟩
    | closeIgnore => exact h
    | openComprehension => exact ⟨h.leveled, fun hi' => absurd hi' hi⟩
    | closeComprehension => exact ⟨h.leveled, fun hi' => absurd hi' hi⟩
    | openBlock | closeBlock | neutral => dsimp only; split <;> assumption

/-- One step of the stack is one step of the counter, and the slots agree. -/
lemma state_step (h : Sound slots m) (position : Nat) (c : Category) :
    (m.state.step c).1.map (· % slots) = (m.step slots position c).1.slot ∧
      (m.state.step c).2 = (m.step slots position c).2.state := by
  obtain ⟨hlevel, hbrackets⟩ := h
  rcases m with ⟨blocks, brackets, ignoring⟩
  cases ignoring with
  | true =>
    have hz : brackets = 0 := hbrackets rfl
    subst hz
    cases c <;> simp [Machine.state, Machine.step, Depth.State.step]
  | false =>
    rcases brackets with _ | n
    · rcases blocks with _ | ⟨b, bs⟩
      · cases c <;> simp [Machine.state, Machine.step, Machine.visitBlock, Depth.State.step]
      · have hb : b.slot = bs.length % slots := hlevel.1
        cases c <;> simp [Machine.state, Machine.step, Machine.visitBlock, Depth.State.step, hb]
    · cases c <;> simp [Machine.state, Machine.step, Depth.State.step]
      rcases n with _ | n <;> simp

lemma run_state (h : Sound slots m) (position : Nat) (ts : List Token) :
    (Depth.run m.state ts).map (fun (t, depth) =>
      (⟨t.start, t.length, depth % slots⟩ : Assignment)) =
      assignments ts (m.visits slots position ts) := by
  induction ts generalizing m position with
  | nil => rfl
  | cons t ts ih =>
    obtain ⟨hslot, hstate⟩ := state_step h position t.category
    have hrest := ih (sound_step h position t.category) (position + 1)
    rw [← hstate] at hrest
    simp only [Depth.run, Machine.visits, assignments, ← hslot]
    rcases hs : m.state.step t.category with ⟨_ | depth, s⟩ <;> simpa [hs] using hrest

/-- The tokens at two positions of a visited stream open and close a block and are
coloured with one slot. -/
structure Paired (ts : List Token) (vs : List Visit) (i j : Nat) : Prop where
  order : i < j
  opens : ts[i]?.map Token.category = some .openBlock
  closes : ts[j]?.map Token.category = some .closeBlock
  slot : ∃ slot, vs[i]?.bind Visit.slot = some slot ∧ vs[j]?.bind Visit.slot = some slot

/-- The open blocks have been entered at their openers, with their slots. -/
def Recorded (ts : List Token) (vs : List Visit) (m : Machine) : Prop :=
  ∀ b ∈ m.blocks, b.opener < ts.length ∧ ts[b.opener]?.map Token.category = some .openBlock ∧
    vs[b.opener]?.bind Visit.slot = some b.slot

lemma Recorded.append {ts : List Token} {vs : List Visit} (h : Recorded ts vs m)
    (hlen : vs.length = ts.length) (t : Token) (v : Visit) :
    Recorded (ts ++ [t]) (vs ++ [v]) m := by
  intro b hb
  obtain ⟨hlt, hopen, hslot⟩ := h b hb
  refine ⟨by simp; omega, ?_, ?_⟩
  · rwa [List.getElem?_append_left hlt]
  · rwa [List.getElem?_append_left (by omega)]

/-- A block that is open after a step was open before, or is opened by the step. -/
lemma mem_blocks_step {position : Nat} {c : Category} {b : Block}
    (h : b ∈ (m.step slots position c).2.blocks) :
    b ∈ m.blocks ∨
      (c = .openBlock ∧ b.opener = position ∧ (m.step slots position c).1.slot = some b.slot) := by
  rcases m with ⟨blocks, brackets, ignoring⟩
  cases ignoring with
  | true => by_cases hc : c = .closeIgnore <;> simp_all [Machine.step]
  | false =>
    by_cases hb : 0 < brackets
    · cases c <;> simp_all [Machine.step]
    · cases c with
      | openBlock =>
        simp only [Machine.step, Machine.visitBlock, Bool.false_eq_true, if_false, hb,
          List.mem_cons] at h ⊢
        rcases h with rfl | h
        · exact .inr ⟨trivial, rfl, rfl⟩
        · exact .inl h
      | closeBlock =>
        rcases blocks with _ | ⟨b', bs⟩ <;> simp_all [Machine.step, Machine.visitBlock]
      | _ => simp_all [Machine.step, Machine.visitBlock]

lemma Recorded.step {ts : List Token} {vs : List Visit} (h : Recorded ts vs m)
    (hlen : vs.length = ts.length) (slots : Nat) (t : Token) :
    Recorded (ts ++ [t]) (vs ++ [(m.step slots vs.length t.category).1])
      (m.step slots vs.length t.category).2 := by
  intro b hb
  rcases mem_blocks_step hb with hold | ⟨hc, hpos, hslot⟩
  · exact h.append hlen t _ b hold
  · rw [hpos]
    refine ⟨by simp; omega, ?_, ?_⟩
    · simp [hlen, hc]
    · simpa using hslot

/-- Only a closing keyword closes a block, and it takes the slot of the innermost one. -/
lemma closes_step {position i : Nat} {c : Category}
    (h : (m.step slots position c).1.closes = some i) :
    c = .closeBlock ∧ ∃ b ∈ m.blocks, b.opener = i ∧ (m.step slots position c).1.slot =
      some b.slot := by
  rcases m with ⟨blocks, brackets, ignoring⟩
  cases ignoring with
  | true => simp [Machine.step] at h
  | false =>
    by_cases hb : 0 < brackets
    · cases c <;> simp [Machine.step, hb] at h
    · cases c with
      | closeBlock =>
        rcases blocks with _ | ⟨b, bs⟩
        · simp [Machine.step, Machine.visitBlock, hb] at h
        · refine ⟨rfl, b, by simp, ?_, ?_⟩
          · simpa [Machine.step, Machine.visitBlock, hb] using h
          · simp [Machine.step, Machine.visitBlock, hb]
      | _ => simp [Machine.step, Machine.visitBlock, hb] at h

/-- Reading on from a recorded machine, every keyword that closes a block is paired with the
opener of the block. -/
lemma paired_of_closes {ts : List Token} {vs : List Visit} (h : Recorded ts vs m)
    (hlen : vs.length = ts.length) (rest : List Token) {i j : Nat} {v : Visit}
    (hv : (m.visits slots vs.length rest)[j]? = some v)
    (hi : v.closes = some i) :
    Paired (ts ++ rest) (vs ++ m.visits slots vs.length rest) i (vs.length + j) := by
  induction rest generalizing ts vs m j with
  | nil => simp [Machine.visits] at hv
  | cons t rest ih =>
    have hstep := h.step hlen slots t
    cases j with
    | zero =>
      obtain rfl : (m.step slots vs.length t.category).1 = v := by simpa [Machine.visits] using hv
      obtain ⟨hc, b, hb, rfl, hslot⟩ := closes_step hi
      obtain ⟨hlt, hopen, hopened⟩ := h b hb
      refine ⟨by omega, ?_, ?_, b.slot, ?_, ?_⟩
      · rwa [List.getElem?_append_left hlt]
      · simp [hlen, hc]
      · rwa [List.getElem?_append_left (by omega)]
      · simpa [Machine.visits] using hslot
    | succ j =>
      have hrest := ih hstep (by simp [hlen]) (j := j) (by simpa [Machine.visits] using hv)
      simpa [Machine.visits, Nat.add_assoc, Nat.add_comm 1 j] using hrest

/-- The counter gives every token the slot that the stack gives it, and a keyword that closes a
block shares the slot of the keyword that opened it, whether or not the stream is balanced. -/
theorem classify_eq_stack (ts : List Token) {slots : Nat} (h : 0 < slots) :
    classify ts slots = .ok (assignments ts (Machine.visits slots {} 0 ts)) ∧
      ∀ i j v, (Machine.visits slots {} 0 ts)[j]? = some v → v.closes = some i →
        Paired ts (Machine.visits slots {} 0 ts) i j := by
  constructor
  · have hrun : _ = assignments ts (Machine.visits slots {} 0 ts) :=
      run_state (sound_start slots) 0 ts
    have hstart : Machine.state {} = {} := rfl
    rw [hstart] at hrun
    rw [classify_eq h, hrun]
  · intro i j v hv hi
    have hstart : Recorded [] [] {} := by simp [Recorded]
    simpa using paired_of_closes hstart rfl ts hv hi

/-- A closing keyword too many at either end; inside, brackets that a region makes
the machine forget. -/
def unbalanced : List Token :=
  [⟨0, 3, .closeBlock⟩, ⟨4, 2, .openBlock⟩, ⟨7, 1, .openComprehension⟩, ⟨9, 2, .openBlock⟩,
   ⟨12, 1, .openIgnore⟩, ⟨14, 3, .closeBlock⟩, ⟨18, 1, .closeIgnore⟩, ⟨20, 2, .openBlock⟩,
   ⟨23, 4, .neutral⟩, ⟨28, 3, .closeBlock⟩, ⟨32, 3, .closeBlock⟩, ⟨36, 3, .closeBlock⟩]

theorem classify_eq_stack_unbalanced :
    0 < 3 ∧
      classify unbalanced 3 =
        .ok [⟨0, 3, 0⟩, ⟨4, 2, 0⟩, ⟨9, 2, 2⟩, ⟨20, 2, 1⟩, ⟨23, 4, 1⟩, ⟨28, 3, 1⟩, ⟨32, 3, 0⟩,
          ⟨36, 3, 0⟩] ∧
      Paired unbalanced (Machine.visits 3 {} 0 unbalanced) 1 10 := by
  obtain ⟨heq, hpair⟩ := classify_eq_stack unbalanced (by decide : 0 < 3)
  refine ⟨by decide, heq.trans (by decide), ?_⟩
  exact hpair 1 10 ⟨some 0, some 1⟩ (by decide) rfl

end Nesting
end BlockHue
