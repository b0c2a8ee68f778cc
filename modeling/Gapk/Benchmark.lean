import Gapk.Library.RecordRing
import Gapk.Library.Transducer
import Gapk.Procqueue
import Mathlib.Data.BitVec

/-!
# Benchmark

The macros of `bench.h` record how many cycles a codec took, `benchmark.c` adds
them up and the application reports an average. The writer advances the index
before it stores, the readers take the index for the number of records and add up
the slots in front of it.
-/

namespace Gapk.Benchmark

open CheckedMemory RecordRing Transducer
open Gapk.Formats Gapk.Procqueue

set_option autoImplicit false

/-- `cycles_t`, which has 64 bits like the sum of them. -/
abbrev Cycles := BitVec 64

/-- `OSMO_GAPK_CYCLES_NUM_AVG`. -/
def cyclesNumAvg : Nat := 102400

def eagain : Int := 11

structure BenchCycles where
  enc : List Cycles
  encUsed : Nat
  dec : List Cycles
  decUsed : Nat

abbrev BenchTable := CodecType → Option BenchCycles

def loadCycles (slots : List Cycles) (index : Nat) : Exec Cycles :=
  if index < slots.length then pure (slots.getD index 0) else throw .outOfBounds

def storeCycles (slots : List Cycles) (index : Nat) (value : Cycles) : Exec (List Cycles) :=
  if index < slots.length then pure (slots.set index value) else throw .outOfBounds

def zeroBench : BenchCycles where
  enc := List.replicate cyclesNumAvg 0
  encUsed := 0
  dec := List.replicate cyclesNumAvg 0
  decUsed := 0

def osmoGapkBenchEnable (table : BenchTable) (codec : CodecType) (allocated : Bool) :
    Int × BenchTable :=
  if !allocated then (-enomem, table) else (0, Function.update table codec (some zeroBench))

/-- `BENCHMARK_STOP(codec, encode)`, with the counter as it was read at the start
and as it is read now. -/
def benchmarkStop (table : BenchTable) (codec : CodecType) (encode : Bool)
    (cyclesStart cyclesStop : Cycles) : Exec BenchTable :=
  match table codec with
  | none => pure table
  | some bc =>
      if encode then do
        let encUsed := (bc.encUsed + 1) % cyclesNumAvg
        let enc ← storeCycles bc.enc encUsed (cyclesStop - cyclesStart)
        pure (Function.update table codec (some { bc with enc := enc, encUsed := encUsed }))
      else do
        let decUsed := (bc.decUsed + 1) % cyclesNumAvg
        let dec ← storeCycles bc.dec decUsed (cyclesStop - cyclesStart)
        pure (Function.update table codec (some { bc with dec := dec, decUsed := decUsed }))

-- The error code is returned as an unsigned number.
def osmoGapkBenchGetCycles (table : BenchTable) (codec : CodecType) (enc : Bool) : Exec Cycles :=
  match table codec with
  | none => pure (BitVec.ofInt 64 (-eagain))
  | some bench =>
      if enc then
        forLoop bench.encUsed (fun i cycles => do pure (cycles + (← loadCycles bench.enc i))) 0
      else
        forLoop bench.decUsed (fun i cycles => do pure (cycles + (← loadCycles bench.dec i))) 0

def osmoGapkBenchGetFrames (table : BenchTable) (codec : CodecType) (enc : Bool) : BitVec 32 :=
  match table codec with
  | none => BitVec.ofInt 32 (-eagain)
  | some bench => BitVec.ofNat 32 (if enc then bench.encUsed else bench.decUsed)

/-- The codecs below `_CODEC_MAX` in the order of their numbers. -/
def codecTypes : List CodecType := [.invalid, .pcm, .hr, .fr, .efr, .amr]

def benchLine (codec : CodecType) (enc : Bool) (cycles frames : Nat) : String :=
  "Codec " ++ toString (codecTypes.idxOf codec) ++ (if enc then " (ENC): " else " (DEC): ") ++
    toString cycles ++ " cycles for " ++ toString frames ++ " frames => " ++
    toString (cycles / frames) ++ " cycles/frame\n"

/-- The report of one direction; nothing is divided by an index that is zero. -/
def dumpDirection (table : BenchTable) (codec : CodecType) (enc : Bool) (used : Nat) :
    Exec (List String) :=
  if used ≠ 0 then do
    let cycles ← osmoGapkBenchGetCycles table codec enc
    let frames := osmoGapkBenchGetFrames table codec enc
    pure [benchLine codec enc cycles.toNat frames.toNat]
  else pure []

def dumpCodec (table : BenchTable) (codec : CodecType) : Exec (List String) :=
  match table codec with
  | none => pure []
  | some bc => do
      let encoder ← dumpDirection table codec true bc.encUsed
      let decoder ← dumpDirection table codec false bc.decUsed
      pure (encoder ++ decoder)

def benchmarkDump (table : BenchTable) : Exec (List String) := do
  let lines ← codecTypes.mapM (dumpCodec table)
  pure lines.flatten

def BenchCycles.ring (bench : BenchCycles) (encode : Bool) : RingLog Cycles :=
  if encode then ⟨bench.enc, bench.encUsed⟩ else ⟨bench.dec, bench.decUsed⟩

def BenchCycles.withRing (bench : BenchCycles) (encode : Bool) (ring : RingLog Cycles) :
    BenchCycles :=
  if encode then { bench with enc := ring.slots, encUsed := ring.used }
  else { bench with dec := ring.slots, decUsed := ring.used }

theorem ring_with_ring (bench : BenchCycles) (encode other : Bool) (ring : RingLog Cycles) :
    (bench.withRing encode ring).ring other = if other = encode then ring else bench.ring other := by
  cases encode <;> cases other <;> rfl

/-- The ring of a direction that was enabled and has recorded these counts. -/
def recordedRing (counts : List Cycles) : RingLog Cycles := recordAll (fresh cyclesNumAvg 0) counts

theorem recorded_ring_holds (counts : List Cycles) :
    Holds cyclesNumAvg 0 counts (recordedRing counts) :=
  record_all_holds (by decide) 0 counts

theorem recorded_ring_append (counts : List Cycles) (count : Cycles) :
    recordedRing (counts ++ [count]) = record (recordedRing counts) count := by
  rw [recordedRing, recordAll, List.foldl_append]
  rfl

theorem zero_bench_ring (encode : Bool) : zeroBench.ring encode = recordedRing [] := by
  cases encode <;> rfl

section Runs

/-- What happens to the table: a codec is enabled, unless there is no memory for
it, or a measurement ends. -/
inductive BenchEvent where
  | enable (codec : CodecType) (allocated : Bool)
  | stop (codec : CodecType) (encode : Bool) (cyclesStart cyclesStop : Cycles)

def benchStep (table : BenchTable) : BenchEvent → Exec BenchTable
  | .enable codec allocated => pure (osmoGapkBenchEnable table codec allocated).2
  | .stop codec encode cyclesStart cyclesStop =>
      benchmarkStop table codec encode cyclesStart cyclesStop

def benchRun (events : List BenchEvent) : Exec BenchTable := events.foldlM benchStep fun _ => none

/-- The counts of a direction since its codec was enabled last, if it was. -/
abbrev Measured := CodecType → Bool → Option (List Cycles)

def noteEvent (known : Measured) : BenchEvent → Measured
  | .enable codec allocated =>
      if !allocated then known else Function.update known codec fun _ => some []
  | .stop codec encode cyclesStart cyclesStop =>
      Function.update known codec (Function.update (known codec) encode
        ((known codec encode).map (· ++ [cyclesStop - cyclesStart])))

def measured (events : List BenchEvent) : Measured := events.foldl noteEvent fun _ _ => none

/-- The rings of the table are those of the measured counts. -/
def Tracks (table : BenchTable) (known : Measured) : Prop :=
  ∀ codec encode, (table codec).map (fun bench => bench.ring encode) =
    (known codec encode).map recordedRing

variable {table : BenchTable} {known : Measured}

theorem store_cycles_eq {slots : List Cycles} {index : Nat} (value : Cycles)
    (bound : index < slots.length) : storeCycles slots index value = .ok (slots.set index value) :=
  if_pos bound

/-- A measurement of a codec that is enabled: one direction records it. -/
theorem benchmark_stop_eq {codec : CodecType} {bench : BenchCycles} (found : table codec = some bench)
    (encode : Bool) (size : (bench.ring encode).slots.length = cyclesNumAvg)
    (cyclesStart cyclesStop : Cycles) :
    benchmarkStop table codec encode cyclesStart cyclesStop =
      .ok (Function.update table codec (some (bench.withRing encode
        (record (bench.ring encode) (cyclesStop - cyclesStart))))) := by
  have inside : ∀ used, (used + 1) % cyclesNumAvg < cyclesNumAvg := by
    intro used
    exact Nat.mod_lt _ (by decide)
  unfold benchmarkStop
  rw [found]
  cases encode with
  | true =>
      simp only [BenchCycles.ring, if_true] at size
      simp only [BenchCycles.ring, BenchCycles.withRing, record, if_true, size]
      rw [store_cycles_eq _ (by rw [size]; exact inside _)]
      rfl
  | false =>
      simp only [BenchCycles.ring, Bool.false_eq_true, if_false] at size
      simp only [BenchCycles.ring, BenchCycles.withRing, record, Bool.false_eq_true, if_false, size]
      rw [store_cycles_eq _ (by rw [size]; exact inside _)]
      rfl

theorem Tracks.exists_counts (tracks : Tracks table known) {codec : CodecType}
    {bench : BenchCycles} (found : table codec = some bench) (encode : Bool) :
    ∃ counts, known codec encode = some counts ∧ recordedRing counts = bench.ring encode := by
  have ring := tracks codec encode
  rwa [found, Option.map_some, eq_comm, Option.map_eq_some_iff] at ring

theorem Tracks.unknown (tracks : Tracks table known) {codec : CodecType}
    (missing : table codec = none) (encode : Bool) : known codec encode = none := by
  have ring := tracks codec encode
  rwa [missing, Option.map_none, eq_comm, Option.map_eq_none_iff] at ring

/-- A codec that is enabled starts with two rings that have recorded nothing. -/
theorem Tracks.enable (tracks : Tracks table known) (codec : CodecType) :
    Tracks (Function.update table codec (some zeroBench))
      (Function.update known codec fun _ => some []) := by
  intro other direction
  by_cases same : other = codec
  · rw [same, Function.update_self, Function.update_self, Option.map_some, Option.map_some,
      zero_bench_ring]
  · rw [Function.update_of_ne same, Function.update_of_ne same]
    exact tracks other direction

/-- A record is kept by its own ring, and no other ring changes. -/
theorem Tracks.record (tracks : Tracks table known) {codec : CodecType} {bench : BenchCycles}
    (found : table codec = some bench) {encode : Bool} {counts : List Cycles}
    (ring : recordedRing counts = bench.ring encode) (count : Cycles) :
    Tracks (Function.update table codec (some (bench.withRing encode
        (RecordRing.record (bench.ring encode) count))))
      (Function.update known codec (Function.update (known codec) encode
        (some (counts ++ [count])))) := by
  intro other direction
  by_cases same : other = codec
  · rw [same, Function.update_self, Function.update_self, Option.map_some, ring_with_ring]
    by_cases here : direction = encode
    · rw [here, if_pos rfl, Function.update_self, Option.map_some, recorded_ring_append, ring]
    · rw [if_neg here, Function.update_of_ne here, ← tracks codec direction, found,
        Option.map_some]
  · rw [Function.update_of_ne same, Function.update_of_ne same]
    exact tracks other direction

theorem bench_step_tracks (tracks : Tracks table known) (event : BenchEvent) :
    ∃ next, benchStep table event = .ok next ∧ Tracks next (noteEvent known event) := by
  cases event with
  | enable codec allocated =>
      refine ⟨_, rfl, ?_⟩
      cases allocated with
      | false => exact tracks
      | true => exact tracks.enable codec
  | stop codec encode cyclesStart cyclesStop =>
      cases found : table codec with
      | none =>
          -- nothing is recorded of a codec that is not enabled
          refine ⟨table, by simp only [benchStep, benchmarkStop, found, exec_pure], ?_⟩
          have unknown := tracks.unknown found encode
          rw [noteEvent, unknown, Option.map_none, ← unknown, Function.update_eq_self,
            Function.update_eq_self]
          exact tracks
      | some bench =>
          obtain ⟨counts, counted, ring⟩ := tracks.exists_counts found encode
          have size : (bench.ring encode).slots.length = cyclesNumAvg := by
            rw [← ring, (recorded_ring_holds counts).size]
          refine ⟨_, benchmark_stop_eq found encode size cyclesStart cyclesStop, ?_⟩
          rw [noteEvent, counted, Option.map_some]
          exact tracks.record found ring _

theorem bench_run_tracks (events : List BenchEvent) :
    ∃ table, benchRun events = .ok table ∧ Tracks table (measured events) :=
  simulates_run (fun known event => (noteEvent known event, ())) benchStep
    (fun known _ table => Tracks table known)
    (fun _ _ _ event tracks => bench_step_tracks tracks event) [] events
    (fun _ _ => rfl : Tracks (fun _ => none) fun _ _ => none)

end Runs

section Readers

variable {table : BenchTable} {known : Measured} (tracks : Tracks table known)
  {codec : CodecType} {encode : Bool} {counts : List Cycles}

include tracks

theorem Tracks.exists_bench (counted : known codec encode = some counts) :
    ∃ bench, table codec = some bench ∧ bench.ring encode = recordedRing counts := by
  have ring := tracks codec encode
  rw [counted, Option.map_some, Option.map_eq_some_iff] at ring
  exact ring

omit tracks in
theorem sum_loop {slots : List Cycles} {used : Nat} (inside : used ≤ slots.length) :
    forLoop used (fun i cycles => do pure (cycles + (← loadCycles slots i))) 0 =
      .ok (slots.take used).sum := by
  obtain ⟨final, run, value⟩ := for_loop_invariant
    (fun i cycles => do pure (cycles + (← loadCycles slots i)))
    (fun i cycles => cycles = (slots.take i).sum) used (0 : Cycles) rfl (by
      rintro i bound _ rfl
      have stored : i < slots.length := by omega
      refine ⟨_, by rw [loadCycles, if_pos stored, exec_pure, exec_bind_ok, exec_pure], ?_⟩
      rw [List.take_succ_eq_append_getElem stored, List.sum_append, List.sum_singleton,
        List.getD_eq_getElem _ _ stored])
  rw [run, value]

theorem Tracks.get_cycles_eq (counted : known codec encode = some counts) :
    osmoGapkBenchGetCycles table codec encode = .ok (recordedRing counts).front.sum := by
  obtain ⟨bench, found, ring⟩ := tracks.exists_bench counted
  have inside := (recorded_ring_holds counts).used_lt (by decide)
  rw [← ring] at inside ⊢
  rw [osmoGapkBenchGetCycles, found, RingLog.front]
  cases encode with
  | true => exact sum_loop (Nat.le_of_lt inside)
  | false => exact sum_loop (Nat.le_of_lt inside)

theorem Tracks.get_frames_eq (counted : known codec encode = some counts) :
    (osmoGapkBenchGetFrames table codec encode).toNat = counts.length % cyclesNumAvg := by
  obtain ⟨bench, found, ring⟩ := tracks.exists_bench counted
  have holds := recorded_ring_holds counts
  rw [← ring] at holds
  have used : (if encode then bench.encUsed else bench.decUsed) = counts.length % cyclesNumAvg := by
    rw [← holds.index]
    cases encode <;> rfl
  have small : counts.length % cyclesNumAvg < 2 ^ 32 :=
    Nat.lt_trans (Nat.mod_lt _ (by decide)) (by decide : cyclesNumAvg < 2 ^ 32)
  rw [osmoGapkBenchGetFrames, found]
  simp only [used, BitVec.toNat_ofNat]
  exact Nat.mod_eq_of_lt small

omit tracks in
def directionLines (known : Measured) (codec : CodecType) (encode : Bool) : List String :=
  match known codec encode with
  | none => []
  | some counts =>
      if counts.length % cyclesNumAvg ≠ 0 then
        [benchLine codec encode (recordedRing counts).front.sum.toNat (counts.length % cyclesNumAvg)]
      else []

theorem Tracks.dump_direction_eq {bench : BenchCycles} (found : table codec = some bench)
    (encode : Bool) :
    dumpDirection table codec encode (bench.ring encode).used =
      .ok (directionLines known codec encode) := by
  obtain ⟨counts, counted, ring⟩ := tracks.exists_counts found encode
  rw [directionLines, counted, ← ring, (recorded_ring_holds counts).index, dumpDirection,
    tracks.get_cycles_eq counted, exec_bind_ok]
  simp only [tracks.get_frames_eq counted]
  split_ifs <;> rfl

theorem Tracks.dump_codec_eq (codec : CodecType) :
    dumpCodec table codec =
      .ok (directionLines known codec true ++ directionLines known codec false) := by
  rw [dumpCodec]
  cases found : table codec with
  | none =>
      rw [directionLines, directionLines, tracks.unknown found, tracks.unknown found]
      rfl
  | some bench =>
      have encoder := tracks.dump_direction_eq found true
      have decoder := tracks.dump_direction_eq found false
      simp only [BenchCycles.ring, if_true, Bool.false_eq_true, if_false] at encoder decoder
      simp only [encoder, decoder, exec_bind_ok, exec_pure]

theorem Tracks.benchmark_dump_eq :
    benchmarkDump table = .ok (codecTypes.flatMap fun codec =>
      directionLines known codec true ++ directionLines known codec false) := by
  have dumps : dumpCodec table = fun codec =>
      pure (directionLines known codec true ++ directionLines known codec false) :=
    funext tracks.dump_codec_eq
  rw [benchmarkDump, dumps, List.mapM_pure]
  rfl

end Readers

/-- The readers and the report account for these records: the index is one of the
ring, and number, sum and average are those of the records. -/
structure Accounts (table : BenchTable) (codec : CodecType) (encode : Bool)
    (records : List Cycles) : Prop where
  index : ∃ bench, table codec = some bench ∧ (bench.ring encode).used < cyclesNumAvg
  frames : (osmoGapkBenchGetFrames table codec encode).toNat = records.length
  cycles : osmoGapkBenchGetCycles table codec encode = .ok records.sum
  average : ∃ report, benchmarkDump table = .ok report ∧
    benchLine codec encode records.sum.toNat records.length ∈ report

/-- A direction with a sum that is right is reported with the right average. -/
theorem Tracks.line_reported {table : BenchTable} {known : Measured} (tracks : Tracks table known)
    {codec : CodecType} {encode : Bool} {counts : List Cycles}
    (counted : known codec encode = some counts) (nonempty : counts ≠ [])
    (within : counts.length < cyclesNumAvg)
    (sums : (recordedRing counts).front.sum = counts.sum) :
    ∃ report, benchmarkDump table = .ok report ∧
      benchLine codec encode counts.sum.toNat counts.length ∈ report := by
  have shown : directionLines known codec encode =
      [benchLine codec encode counts.sum.toNat counts.length] := by
    have positive : counts.length ≠ 0 := by simpa using nonempty
    have count : counts.length % cyclesNumAvg = counts.length := Nat.mod_eq_of_lt within
    simp only [directionLines, counted, count, sums, positive, ne_eq, not_false_eq_true, if_true]
  have listed : codec ∈ codecTypes := by
    cases codec <;> decide
  refine ⟨_, tracks.benchmark_dump_eq, ?_⟩
  rw [List.mem_flatMap]
  refine ⟨codec, listed, ?_⟩
  rw [List.mem_append]
  cases encode with
  | true => exact Or.inl (by rw [shown]; simp)
  | false => exact Or.inr (by rw [shown]; simp)

/-- The record stored last is left out, so the sum is right only as long as nothing
has wrapped around and the last record is zero. -/
theorem Tracks.accounts_iff {table : BenchTable} {known : Measured} (tracks : Tracks table known)
    {codec : CodecType} {encode : Bool} {counts : List Cycles}
    (counted : known codec encode = some counts) (nonempty : counts ≠ []) :
    Accounts table codec encode (window cyclesNumAvg counts) ↔
      counts.length < cyclesNumAvg ∧ counts.getLast? = some 0 := by
  have holds := recorded_ring_holds counts
  have frames := tracks.get_frames_eq counted
  have cycles := tracks.get_cycles_eq counted
  constructor
  · intro accounts
    have within : counts.length < cyclesNumAvg := by
      have counted := frames.symm.trans accounts.frames
      have bound := Nat.mod_lt counts.length (by decide : cyclesNumAvg > 0)
      rw [window_length] at counted
      omega
    have sums := cycles.symm.trans accounts.cycles
    rw [window_of_le (Nat.le_of_lt within), Except.ok.injEq] at sums
    exact ⟨within, (front_sum_eq_iff holds within nonempty).mp sums⟩
  · rintro ⟨within, last⟩
    have sums := (front_sum_eq_iff holds within nonempty).mpr last
    have count : counts.length % cyclesNumAvg = counts.length := Nat.mod_eq_of_lt within
    obtain ⟨bench, found, ring⟩ := tracks.exists_bench counted
    rw [window_of_le (Nat.le_of_lt within)]
    exact {
      index := ⟨bench, found, by rwa [ring, holds.index, count]⟩
      frames := by rw [frames, count]
      cycles := by rw [cycles, sums]
      average := tracks.line_reported counted nonempty within sums }

/-- In every run, the benchmark accounts for the most recent records of a direction
exactly if there are fewer of them than the ring has slots and the last one is zero. -/
theorem bench_accounts_iff_last_zero {events : List BenchEvent} {codec : CodecType} {encode : Bool}
    {counts : List Cycles} (recorded : measured events codec encode = some counts)
    (nonempty : counts ≠ []) :
    ∃ table, benchRun events = .ok table ∧
      (∃ bench, table codec = some bench ∧ (bench.ring encode).used < cyclesNumAvg) ∧
      (Accounts table codec encode (window cyclesNumAvg counts) ↔
        counts.length < cyclesNumAvg ∧ counts.getLast? = some 0) := by
  obtain ⟨table, run, tracks⟩ := bench_run_tracks events
  obtain ⟨bench, found, ring⟩ := tracks.exists_bench recorded
  refine ⟨table, run, ⟨bench, found, ?_⟩, tracks.accounts_iff recorded nonempty⟩
  rw [ring, (recorded_ring_holds counts).index]
  exact Nat.mod_lt _ (by decide)

theorem bench_accounts_iff_one_frame :
    ∃ table, benchRun [.enable .fr true, .stop .fr true 7 7] = .ok table ∧
      (∃ bench, table .fr = some bench ∧ (bench.ring true).used < cyclesNumAvg) ∧
      (Accounts table .fr true (window cyclesNumAvg [0]) ↔
        [(0 : Cycles)].length < cyclesNumAvg ∧ [(0 : Cycles)].getLast? = some 0) :=
  bench_accounts_iff_last_zero rfl (by decide)

/-- A single frame that took 240 cycles is counted, with no cycles at all. -/
theorem bench_loses_first_record :
    ∃ table, benchRun [.enable .fr true, .stop .fr true 1000 1240] = .ok table ∧
      measured [.enable .fr true, .stop .fr true 1000 1240] .fr true = some [240] ∧
      (osmoGapkBenchGetFrames table .fr true).toNat = 1 ∧
      osmoGapkBenchGetCycles table .fr true = .ok 0 ∧
      ¬Accounts table .fr true (window cyclesNumAvg [240]) := by
  obtain ⟨table, run, tracks⟩ := bench_run_tracks [.enable .fr true, .stop .fr true 1000 1240]
  have counted : measured [.enable .fr true, .stop .fr true 1000 1240] .fr true = some [240] := rfl
  have frames := tracks.get_frames_eq counted
  have cycles := tracks.get_cycles_eq counted
  have one : 1 % cyclesNumAvg = 1 := by decide
  have front : (recordedRing [240]).front = [0] := by
    rw [(recorded_ring_holds [240]).front_eq (by decide), List.length_singleton, one]
    rfl
  rw [List.length_singleton, one] at frames
  rw [front] at cycles
  refine ⟨table, run, counted, frames, cycles, ?_⟩
  rw [tracks.accounts_iff counted (by decide)]
  decide

end Gapk.Benchmark
