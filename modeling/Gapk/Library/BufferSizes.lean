import Gapk.Library.HostWords

/-!
# Buffers of one size

A program that works in a buffer it was given changes what the buffer holds and not
how much it holds. The rules follow the ways in which such programs are put together.
-/

namespace BufferSizes

open CheckedMemory HostWords

set_option autoImplicit false

def KeepsSize (step : Buf → Exec Buf) : Prop :=
  ∀ buf out, step buf = .ok out → out.length = buf.length

section Steps

theorem pure_keeps_size : KeepsSize fun buf => pure buf := by
  intro buf out run
  cases run
  rfl

theorem store_keeps_size (index : Nat) (value : Byte) :
    KeepsSize fun buf => store buf index value := by
  intro buf out run
  simp only [store] at run
  split_ifs at run
  cases run
  exact List.length_set

theorem memset_keeps_size (value : Byte) (count : Nat) :
    KeepsSize fun buf => memset buf value count := by
  intro buf out run
  simp only [memset] at run
  split_ifs at run with inside
  cases run
  rw [List.length_append, List.length_replicate, List.length_drop]
  omega

theorem memcpy_keeps_size (dstOffset : Nat) (src : Buf) (srcOffset count : Nat) :
    KeepsSize fun buf => memcpy buf dstOffset src srcOffset count :=
  fun _ _ run => memcpy_length run

/-- One step after the other. -/
theorem keeps_size_then {first next : Buf → Exec Buf} (keeps : KeepsSize first)
    (keepsNext : KeepsSize next) : KeepsSize fun buf => first buf >>= next := by
  intro buf out run
  obtain ⟨between, run, last⟩ := (exec_bind_eq_ok _ _ _).mp run
  exact (keepsNext _ _ last).trans (keeps _ _ run)

/-- A step that depends on what was read before, from the buffer itself or elsewhere. -/
theorem keeps_size_read {Value : Type} {read : Buf → Exec Value} {next : Value → Buf → Exec Buf}
    (keeps : ∀ value, KeepsSize (next value)) :
    KeepsSize fun buf => read buf >>= fun value => next value buf := by
  intro buf out run
  obtain ⟨value, _, last⟩ := (exec_bind_eq_ok _ _ _).mp run
  exact keeps value _ _ last

theorem for_loop_keeps_size {body : Nat → Buf → Exec Buf} (keeps : ∀ index, KeepsSize (body index))
    (count : Nat) : KeepsSize (forLoop count body) := by
  intro buf out run
  induction count generalizing out with
  | zero =>
      cases run
      rfl
  | succ count ih =>
      rw [for_loop_succ] at run
      obtain ⟨reached, run, last⟩ := (exec_bind_eq_ok _ _ _).mp run
      exact (keeps _ _ _ last).trans (ih _ run)

theorem with_offset_keeps_size {step : Buf → Exec Buf} (keeps : KeepsSize step) (offset : Nat) :
    KeepsSize fun buf => withOffset offset buf step := by
  intro buf out run
  obtain ⟨tail, stepped, last⟩ := (exec_bind_eq_ok _ _ _).mp run
  cases last
  have same := keeps _ _ stepped
  rw [List.length_drop] at same
  rw [List.length_append, List.length_take]
  omega

theorem store_word_keeps_size (host : Endian) (index word : Nat) :
    KeepsSize fun buf => storeWord host buf index word :=
  keeps_size_then (store_keeps_size _ _) (store_keeps_size _ _)

end Steps

/-- A program that returns a fine value and leaves a buffer of the same size. -/
def Ends {Value : Type} (fine : Value → Prop) (run : Buf → Exec (Value × Buf)) : Prop :=
  ∀ buf value out, run buf = .ok (value, out) → out.length = buf.length ∧ fine value

section Programs

variable {Value : Type} {fine : Value → Prop}

theorem ends_pure {value : Value} (isFine : fine value) : Ends fine fun buf => pure (value, buf) := by
  intro buf other out run
  cases run
  exact ⟨rfl, isFine⟩

theorem ends_step {step : Buf → Exec Buf} {next : Buf → Exec (Value × Buf)} (keeps : KeepsSize step)
    (ends : Ends fine next) : Ends fine fun buf => step buf >>= next := by
  intro buf value out run
  obtain ⟨between, run, last⟩ := (exec_bind_eq_ok _ _ _).mp run
  obtain ⟨same, isFine⟩ := ends _ _ _ last
  exact ⟨same.trans (keeps _ _ run), isFine⟩

/-- A program that depends on what was read before. -/
theorem ends_read {Read : Type} {read : Exec Read} {next : Read → Buf → Exec (Value × Buf)}
    (ends : ∀ value, Ends fine (next value)) : Ends fine fun buf => read >>= fun value => next value buf := by
  intro buf value out run
  obtain ⟨read, _, last⟩ := (exec_bind_eq_ok _ _ _).mp run
  exact ends read _ _ _ last

theorem ends_ite {condition : Prop} [Decidable condition] {yes no : Buf → Exec (Value × Buf)}
    (ends : Ends fine yes) (endsElse : Ends fine no) :
    Ends fine fun buf => if condition then yes buf else no buf := by
  intro buf value out run
  change (if condition then yes buf else no buf) = _ at run
  by_cases holds : condition
  · rw [if_pos holds] at run
    exact ends _ _ _ run
  · rw [if_neg holds] at run
    exact endsElse _ _ _ run

/-- A program behind another one, whose value it sees. -/
theorem ends_then {Other : Type} {other : Other → Prop} {first : Buf → Exec (Other × Buf)}
    {next : Other × Buf → Exec (Value × Buf)} (ends : Ends other first)
    (endsNext : ∀ value, other value → Ends fine fun buf => next (value, buf)) :
    Ends fine fun buf => first buf >>= next := by
  intro buf value out run
  obtain ⟨⟨inner, between⟩, run, last⟩ := (exec_bind_eq_ok _ _ _).mp run
  obtain ⟨same, isFine⟩ := ends _ _ _ run
  obtain ⟨sameNext, isFineNext⟩ := endsNext _ isFine _ _ _ last
  exact ⟨sameNext.trans same, isFineNext⟩

/-- A loop that works on a buffer and keeps something else besides. -/
theorem ends_for_loop {body : Nat → Value × Buf → Exec (Value × Buf)}
    (ends : ∀ index value, Ends (fun _ => True) fun buf => body index (value, buf)) (count : Nat)
    (start : Value) : Ends (fun _ => True) fun buf => forLoop count body (start, buf) := by
  intro buf value out run
  induction count generalizing value out with
  | zero =>
      cases run
      exact ⟨rfl, trivial⟩
  | succ count ih =>
      change forLoop (count + 1) body (start, buf) = _ at run
      rw [for_loop_succ] at run
      obtain ⟨⟨reached, between⟩, run, last⟩ := (exec_bind_eq_ok _ _ _).mp run
      exact ⟨(ends _ _ _ _ _ last).1.trans (ih _ _ run).1, trivial⟩

theorem Ends.mono {other : Value → Prop} {run : Buf → Exec (Value × Buf)} (ends : Ends fine run)
    (weaker : ∀ value, fine value → other value) : Ends other run := by
  intro buf value out ran
  obtain ⟨same, isFine⟩ := ends _ _ _ ran
  exact ⟨same, weaker _ isFine⟩

end Programs

end BufferSizes
