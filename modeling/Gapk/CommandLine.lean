import Gapk.AppMain
import Gapk.Options
import Gapk.Library.CText
import Gapk.Library.LastWrite

/-!
# The command line

`parse_options` of `app_osmo_gapk.c`, from what `getopt_long` returns one call after
the other to the options of a run. Every option is judged by itself, and the last
one of its kind counts.
-/

namespace Gapk.CommandLine

open CheckedMemory FixedWidth CText LastWrite
open Gapk.Formats Gapk.Procqueue Gapk.Streams Gapk.QueueOps Gapk.QueueLedger Gapk.Codecs Gapk.App
open Gapk.Chain Gapk.Options Gapk.AppMain

set_option autoImplicit false

/-- The options of `long_options`, in their order there, and anything else. -/
inductive Opt where
  | inputFile
  | outputFile
  | inputRtp
  | outputRtp
  | inputAlsa
  | outputAlsa
  | inputFormat
  | outputFormat
  | rtpPtIn
  | rtpPtOut
  | enableBenchmark
  | throttle
  | verbose
  | help
  | unknown
  deriving DecidableEq, Repr

/-- What `getopt_long` returns once, `optarg`, and whether a copy of that gets memory. -/
structure Given where
  opt : Opt
  optarg : String
  copied : Bool

/-- `struct gapk_options` with the fields that only the opening of streams and the
end of the program look at. -/
structure CommandOptions extends GapkOptions where
  rtpInHostname : Option String
  rtpOutHostname : Option String
  benchmark : Bool
  verbose : Bool

section Parsing

def formatTypes : List FormatType :=
  [.amrEfr, .gsm, .hrRefDec, .hrRefEnc, .racalHr, .racalFr, .racalEfr, .rawpcmS16le, .tiHr, .tiFr,
    .tiEfr, .amrOpencore, .rtpAmr, .rtpEfr, .rtpHrEtsi, .rtpHrIetf]

/-- `osmo_gapk_fmt_get_from_name`. -/
def fmtGetFromName {Lib : Type} (registry : Registry Lib) (name : String) : Option FormatDesc :=
  (formatTypes.filterMap registry.supportedFormats).find? fun fmt => fmt.name = name

/-- `parse_host_port`: the port or a negative value, and the host if it came to that. -/
def parseHostPort (copied : Bool) (hostPort : String) : Int × Option String :=
  if !copied then (-enomem, none)
  else
    match strtok '/' hostPort.toList with
    | none => (-einval, none)
    | some (host, rest) =>
        match strtok '/' rest with
        | none => (-einval, some (String.ofList host))
        | some (port, _) => (atoi port, some (String.ofList host))

def readHostPort (given : Given) : Except Int (Option String × Nat) :=
  let (rv, host) := parseHostPort given.copied given.optarg
  if rv < 0 ∨ rv > 0xffff then .error (-einval) else .ok (host, rv.toNat)

def readFormat {Lib : Type} (registry : Registry Lib) (given : Given) : Except Int FormatDesc :=
  match fmtGetFromName registry given.optarg with
  | none => .error (-einval)
  | some fmt => .ok fmt

def readPayloadType (given : Given) : Except Int Nat :=
  let rv := atoi given.optarg.toList
  if rv < 0 ∨ rv > 0xff then .error (-einval) else .ok rv.toNat

/-- Everything is zero but the payload type, which is that of GSM FR. -/
def defaults : CommandOptions where
  fnameIn := none
  rtpInPort := 0
  alsaIn := none
  fmtIn := none
  fnameOut := none
  rtpOutPort := 0
  alsaOut := none
  fmtOut := none
  rtpPtIn := 3
  rtpPtOut := 3
  throttle := false
  rtpInHostname := none
  rtpOutHostname := none
  benchmark := false
  verbose := false

variable {Lib : Type} (registry : Registry Lib) (haveAlsa : Bool)

/-- One round of the loop: the `switch` over the option. -/
def parseOption (options : CommandOptions) (given : Given) : Except Int CommandOptions :=
  match given.opt with
  | .inputFile => .ok { options with fnameIn := some given.optarg }
  | .outputFile => .ok { options with fnameOut := some given.optarg }
  | .inputRtp => do
      let (host, port) ← readHostPort given
      .ok { options with rtpInHostname := host, rtpInPort := port }
  | .inputAlsa =>
      if haveAlsa then .ok { options with alsaIn := some given.optarg } else .error (-einval)
  | .outputAlsa =>
      if haveAlsa then .ok { options with alsaOut := some given.optarg } else .error (-einval)
  | .outputRtp => do
      let (host, port) ← readHostPort given
      .ok { options with rtpOutHostname := host, rtpOutPort := port }
  | .inputFormat => do
      let fmt ← readFormat registry given
      .ok { options with fmtIn := some fmt }
  | .outputFormat => do
      let fmt ← readFormat registry given
      .ok { options with fmtOut := some fmt }
  | .rtpPtIn => do
      let type ← readPayloadType given
      .ok { options with rtpPtIn := type }
  | .rtpPtOut => do
      let type ← readPayloadType given
      .ok { options with rtpPtOut := type }
  | .enableBenchmark => .ok { options with benchmark := true }
  | .throttle => .ok { options with throttle := true }
  | .verbose => .ok { options with verbose := true }
  | .help => .error 1
  | .unknown => .error (-einval)

/-- `parse_options`: the return value if it is not zero, or the options. -/
def parseOptions (givens : List Given) : Except Int CommandOptions :=
  givens.foldlM (parseOption registry haveAlsa) defaults

end Parsing

section Program

variable {Lib : Type} (platform : Platform Lib)

end Program

section Verdicts

variable {Lib : Type} (registry : Registry Lib) (haveAlsa : Bool)

def refusal (given : Given) : Option Int :=
  match parseOption registry haveAlsa defaults given with
  | .error rv => some rv
  | .ok _ => none

theorem read_host_port_cases (given : Given) : readHostPort given = .error (-einval) ∨
    ∃ pair, readHostPort given = .ok pair := by
  simp only [readHostPort]
  split_ifs
  · exact Or.inl rfl
  · exact Or.inr ⟨_, rfl⟩

theorem read_format_cases (given : Given) : readFormat registry given = .error (-einval) ∨
    ∃ fmt, readFormat registry given = .ok fmt := by
  rw [readFormat]
  cases fmtGetFromName registry given.optarg with
  | none => exact Or.inl rfl
  | some fmt => exact Or.inr ⟨fmt, rfl⟩

theorem read_payload_type_cases (given : Given) : readPayloadType given = .error (-einval) ∨
    ∃ type, readPayloadType given = .ok type := by
  simp only [readPayloadType]
  split_ifs
  · exact Or.inl rfl
  · exact Or.inr ⟨_, rfl⟩

/-- A step that refuses in every state, or goes on in every state. -/
def Uniform (step : CommandOptions → Except Int CommandOptions) : Prop :=
  (∃ rv, (rv = 1 ∨ rv = -einval) ∧ ∀ options, step options = .error rv) ∨
    ∃ set : CommandOptions → CommandOptions, ∀ options, step options = .ok (set options)

/-- What is read from the argument alone decides. -/
theorem read_uniform {Value : Type} {read : Except Int Value}
    (cases : read = .error (-einval) ∨ ∃ value, read = .ok value)
    (set : Value → CommandOptions → CommandOptions) :
    Uniform fun options => read.bind fun value => .ok (set value options) := by
  rcases cases with refused | ⟨value, taken⟩
  · left
    refine ⟨-einval, Or.inr rfl, fun options => ?_⟩
    rw [refused]
    rfl
  · right
    refine ⟨set value, fun options => ?_⟩
    rw [taken]
    rfl

theorem option_judged (given : Given) :
    Uniform fun options => parseOption registry haveAlsa options given := by
  obtain ⟨opt, optarg, copied⟩ := given
  cases opt with
  | inputFile | outputFile | enableBenchmark | throttle | verbose => exact Or.inr ⟨_, fun _ => rfl⟩
  | help => exact Or.inl ⟨1, Or.inl rfl, fun _ => rfl⟩
  | unknown => exact Or.inl ⟨-einval, Or.inr rfl, fun _ => rfl⟩
  | inputAlsa | outputAlsa =>
      cases haveAlsa with
      | false => exact Or.inl ⟨-einval, Or.inr rfl, fun _ => rfl⟩
      | true => exact Or.inr ⟨_, fun _ => rfl⟩
  | inputRtp =>
      exact read_uniform (read_host_port_cases _) fun pair options =>
        { options with rtpInHostname := pair.1, rtpInPort := pair.2 }
  | outputRtp =>
      exact read_uniform (read_host_port_cases _) fun pair options =>
        { options with rtpOutHostname := pair.1, rtpOutPort := pair.2 }
  | inputFormat =>
      exact read_uniform (read_format_cases registry _) fun fmt options =>
        { options with fmtIn := some fmt }
  | outputFormat =>
      exact read_uniform (read_format_cases registry _) fun fmt options =>
        { options with fmtOut := some fmt }
  | rtpPtIn =>
      exact read_uniform (read_payload_type_cases _) fun type options =>
        { options with rtpPtIn := type }
  | rtpPtOut =>
      exact read_uniform (read_payload_type_cases _) fun type options =>
        { options with rtpPtOut := type }

/-- An option is refused whatever came before it, or taken whatever came before it. -/
theorem refusal_spec (given : Given) :
    (∃ rv, (rv = 1 ∨ rv = -einval) ∧ refusal registry haveAlsa given = some rv ∧
      ∀ options, parseOption registry haveAlsa options given = .error rv) ∨
    refusal registry haveAlsa given = none ∧ ∃ set : CommandOptions → CommandOptions,
      ∀ options, parseOption registry haveAlsa options given = .ok (set options) := by
  rcases option_judged registry haveAlsa given with ⟨rv, kind, refused⟩ | ⟨set, taken⟩
  · left
    have first : parseOption registry haveAlsa defaults given = .error rv := refused defaults
    refine ⟨rv, kind, ?_, refused⟩
    rw [refusal, first]
  · right
    have first : parseOption registry haveAlsa defaults given = .ok (set defaults) := taken defaults
    refine ⟨?_, set, taken⟩
    rw [refusal, first]

theorem options_judged : Judged (parseOption registry haveAlsa) (refusal registry haveAlsa) where
  refused options given rv verdict := by
    rcases refusal_spec registry haveAlsa given with ⟨other, _, same, refused⟩ | ⟨none, _⟩
    · cases same.symm.trans verdict
      exact refused options
    · cases none.symm.trans verdict
  accepted options given verdict := by
    rcases refusal_spec registry haveAlsa given with ⟨other, _, same, _⟩ | ⟨_, set, taken⟩
    · cases same.symm.trans verdict
    · exact ⟨set options, taken options⟩

end Verdicts

section Fields

variable {Lib : Type} (registry : Registry Lib) (haveAlsa : Bool)

/-- What an option that is taken does to the options so far. -/
inductive Takes : Given → CommandOptions → CommandOptions → Prop where
  | inputFile (optarg : String) (copied : Bool) (options : CommandOptions) :
      Takes ⟨.inputFile, optarg, copied⟩ options { options with fnameIn := some optarg }
  | outputFile (optarg : String) (copied : Bool) (options : CommandOptions) :
      Takes ⟨.outputFile, optarg, copied⟩ options { options with fnameOut := some optarg }
  | inputRtp {optarg : String} {copied : Bool} {host : Option String} {port : Nat}
      (options : CommandOptions) (read : readHostPort ⟨.inputRtp, optarg, copied⟩ = .ok (host, port)) :
      Takes ⟨.inputRtp, optarg, copied⟩ options
        { options with rtpInHostname := host, rtpInPort := port }
  | outputRtp {optarg : String} {copied : Bool} {host : Option String} {port : Nat}
      (options : CommandOptions) (read : readHostPort ⟨.outputRtp, optarg, copied⟩ = .ok (host, port)) :
      Takes ⟨.outputRtp, optarg, copied⟩ options
        { options with rtpOutHostname := host, rtpOutPort := port }
  | inputAlsa (optarg : String) (copied : Bool) (options : CommandOptions) (sound : haveAlsa = true) :
      Takes ⟨.inputAlsa, optarg, copied⟩ options { options with alsaIn := some optarg }
  | outputAlsa (optarg : String) (copied : Bool) (options : CommandOptions) (sound : haveAlsa = true) :
      Takes ⟨.outputAlsa, optarg, copied⟩ options { options with alsaOut := some optarg }
  | inputFormat {optarg : String} {copied : Bool} {fmt : FormatDesc} (options : CommandOptions)
      (found : fmtGetFromName registry optarg = some fmt) :
      Takes ⟨.inputFormat, optarg, copied⟩ options { options with fmtIn := some fmt }
  | outputFormat {optarg : String} {copied : Bool} {fmt : FormatDesc} (options : CommandOptions)
      (found : fmtGetFromName registry optarg = some fmt) :
      Takes ⟨.outputFormat, optarg, copied⟩ options { options with fmtOut := some fmt }
  | rtpPtIn {optarg : String} {copied : Bool} {type : Nat} (options : CommandOptions)
      (read : readPayloadType ⟨.rtpPtIn, optarg, copied⟩ = .ok type) :
      Takes ⟨.rtpPtIn, optarg, copied⟩ options { options with rtpPtIn := type }
  | rtpPtOut {optarg : String} {copied : Bool} {type : Nat} (options : CommandOptions)
      (read : readPayloadType ⟨.rtpPtOut, optarg, copied⟩ = .ok type) :
      Takes ⟨.rtpPtOut, optarg, copied⟩ options { options with rtpPtOut := type }
  | enableBenchmark (optarg : String) (copied : Bool) (options : CommandOptions) :
      Takes ⟨.enableBenchmark, optarg, copied⟩ options { options with benchmark := true }
  | throttle (optarg : String) (copied : Bool) (options : CommandOptions) :
      Takes ⟨.throttle, optarg, copied⟩ options { options with throttle := true }
  | verbose (optarg : String) (copied : Bool) (options : CommandOptions) :
      Takes ⟨.verbose, optarg, copied⟩ options { options with verbose := true }

variable {registry haveAlsa}

theorem parse_option_takes {options after : CommandOptions} {given : Given}
    (parsed : parseOption registry haveAlsa options given = .ok after) :
    Takes registry haveAlsa given options after := by
  obtain ⟨opt, optarg, copied⟩ := given
  cases opt with
  | help | unknown => cases parsed
  | inputFile | outputFile | enableBenchmark | throttle | verbose =>
      cases parsed
      constructor
  | inputAlsa | outputAlsa =>
      simp only [parseOption] at parsed
      split_ifs at parsed with sound
      cases parsed
      constructor
      exact sound
  | inputRtp | outputRtp =>
      rw [parseOption] at parsed
      cases read : readHostPort _ with
      | error rv =>
          rw [read] at parsed
          cases parsed
      | ok pair =>
          rw [read] at parsed
          cases parsed
          constructor
          exact read
  | inputFormat | outputFormat =>
      rw [parseOption, readFormat] at parsed
      cases found : fmtGetFromName registry optarg with
      | none =>
          simp only [found] at parsed
          cases parsed
      | some fmt =>
          simp only [found] at parsed
          cases parsed
          constructor
          exact found
  | rtpPtIn | rtpPtOut =>
      rw [parseOption] at parsed
      cases read : readPayloadType _ with
      | error rv =>
          rw [read] at parsed
          cases parsed
      | ok type =>
          rw [read] at parsed
          cases parsed
          constructor
          exact read

abbrev Field : Opt → Type
  | .inputFile | .outputFile | .inputAlsa | .outputAlsa => Option String
  | .inputRtp | .outputRtp => Option String × Nat
  | .inputFormat | .outputFormat => Option FormatDesc
  | .rtpPtIn | .rtpPtOut => Nat
  | .enableBenchmark | .throttle | .verbose => Bool
  | .help | .unknown => Unit

def field : (opt : Opt) → CommandOptions → Field opt
  | .inputFile, options => options.fnameIn
  | .outputFile, options => options.fnameOut
  | .inputRtp, options => (options.rtpInHostname, options.rtpInPort)
  | .outputRtp, options => (options.rtpOutHostname, options.rtpOutPort)
  | .inputAlsa, options => options.alsaIn
  | .outputAlsa, options => options.alsaOut
  | .inputFormat, options => options.fmtIn
  | .outputFormat, options => options.fmtOut
  | .rtpPtIn, options => options.rtpPtIn
  | .rtpPtOut, options => options.rtpPtOut
  | .enableBenchmark, options => options.benchmark
  | .throttle, options => options.throttle
  | .verbose, options => options.verbose
  | .help, _ | .unknown, _ => ()

def hostPortOf (given : Given) : Option String × Nat :=
  let (rv, host) := parseHostPort given.copied given.optarg
  (host, rv.toNat)

def argument (registry : Registry Lib) : (opt : Opt) → Given → Field opt
  | .inputFile, given | .outputFile, given | .inputAlsa, given | .outputAlsa, given =>
      some given.optarg
  | .inputRtp, given | .outputRtp, given => hostPortOf given
  | .inputFormat, given | .outputFormat, given => fmtGetFromName registry given.optarg
  | .rtpPtIn, given | .rtpPtOut, given => (atoi given.optarg.toList).toNat
  | .enableBenchmark, _ | .throttle, _ | .verbose, _ => true
  | .help, _ | .unknown, _ => ()

theorem host_port_read {given : Given} {host : Option String} {port : Nat}
    (read : readHostPort given = .ok (host, port)) : hostPortOf given = (host, port) ∧ port ≤ 0xffff := by
  simp only [readHostPort] at read
  split_ifs at read with outside
  cases read
  exact ⟨rfl, by omega⟩

theorem payload_type_read {given : Given} {type : Nat} (read : readPayloadType given = .ok type) :
    (atoi given.optarg.toList).toNat = type ∧ type ≤ 0xff := by
  simp only [readPayloadType] at read
  split_ifs at read with outside
  cases read
  exact ⟨rfl, by omega⟩

theorem takes_own {given : Given} {options after : CommandOptions}
    (takes : Takes registry haveAlsa given options after) :
    field given.opt after = argument registry given.opt given := by
  cases takes with
  | inputFile | outputFile | inputAlsa | outputAlsa | enableBenchmark | throttle | verbose => rfl
  | inputRtp _ read => exact (host_port_read read).1.symm
  | outputRtp _ read => exact (host_port_read read).1.symm
  | inputFormat _ found => exact found.symm
  | outputFormat _ found => exact found.symm
  | rtpPtIn _ read => exact (payload_type_read read).1.symm
  | rtpPtOut _ read => exact (payload_type_read read).1.symm

theorem takes_others {given : Given} {options after : CommandOptions} {other : Opt}
    (takes : Takes registry haveAlsa given options after) (differs : given.opt ≠ other) :
    field other after = field other options := by
  cases takes <;> cases other <;> first | rfl | exact absurd rfl differs

theorem fields_set (wanted : Opt) : Sets (parseOption registry haveAlsa) Given.opt wanted (field wanted)
    (argument registry wanted) where
  own options given after stepped same := by
    subst same
    exact takes_own (parse_option_takes stepped)
  others options given after stepped differs := takes_others (parse_option_takes stepped) differs

theorem options_settled {givens : List Given} {options : CommandOptions}
    (parsed : parseOptions registry haveAlsa givens = .ok options) (opt : Opt) :
    field opt options = lastOf Given.opt opt (argument registry opt) (field opt defaults) givens :=
  fold_last (fields_set opt) parsed

theorem fields_ext {options others : CommandOptions}
    (same : ∀ opt, field opt options = field opt others) : options = others := by
  obtain ⟨opts, hostIn, hostOut, benchmark, verbose⟩ := options
  obtain ⟨optsOther, hostInOther, hostOutOther, benchmarkOther, verboseOther⟩ := others
  have rtpIn := Prod.mk.inj (same .inputRtp)
  have rtpOut := Prod.mk.inj (same .outputRtp)
  have sameOpts : opts = optsOther := by
    cases opts
    cases optsOther
    rw [GapkOptions.mk.injEq]
    exact ⟨same .inputFile, rtpIn.2, same .inputAlsa, same .inputFormat, same .outputFile, rtpOut.2,
      same .outputAlsa, same .outputFormat, same .rtpPtIn, same .rtpPtOut, same .throttle⟩
  rw [CommandOptions.mk.injEq]
  exact ⟨sameOpts, rtpIn.1, rtpOut.1, same .enableBenchmark, same .verbose⟩

end Fields

section Rendering

variable {Lib : Type} (registry : Registry Lib) (haveAlsa : Bool)

/-- The values that a field can be given. -/
def Names : (opt : Opt) → Field opt → Prop
  | .inputFile, _ | .outputFile, _ | .enableBenchmark, _ | .throttle, _ | .verbose, _ | .help, _
  | .unknown, _ => True
  | .inputAlsa, device | .outputAlsa, device => device.isSome → haveAlsa = true
  | .inputRtp, (host, port) | .outputRtp, (host, port) =>
      port ≤ 0xffff ∧ (host = none → port = 0) ∧ ∀ name ∈ host, IsToken '/' name.toList
  | .inputFormat, fmt | .outputFormat, fmt =>
      ∀ found ∈ fmt, fmtGetFromName registry found.name = some found
  | .rtpPtIn, type | .rtpPtOut, type => type ≤ 0xff

/-- Options that a command line can ask for. -/
def Nameable (options : CommandOptions) : Prop := ∀ opt, Names registry haveAlsa opt (field opt options)

def text : (opt : Opt) → Field opt → Option String
  | .inputFile, name | .outputFile, name | .inputAlsa, name | .outputAlsa, name => name
  | .inputRtp, (host, port) | .outputRtp, (host, port) =>
      host.map fun name => String.ofList (name.toList ++ '/' :: Nat.toDigits 10 port)
  | .inputFormat, fmt | .outputFormat, fmt => fmt.map FormatDesc.name
  | .rtpPtIn, type | .rtpPtOut, type => some (String.ofList (Nat.toDigits 10 type))
  | .enableBenchmark, flag | .throttle, flag | .verbose, flag => if flag then some "" else none
  | .help, _ | .unknown, _ => none

def settings : List Opt :=
  [.inputFile, .outputFile, .inputRtp, .outputRtp, .inputAlsa, .outputAlsa, .inputFormat, .outputFormat,
    .rtpPtIn, .rtpPtOut, .enableBenchmark, .throttle, .verbose]

/-- A command line for these options. -/
def render (options : CommandOptions) : List Given :=
  settings.filterMap fun opt => (text opt (field opt options)).map fun optarg => ⟨opt, optarg, true⟩

variable {registry haveAlsa}

theorem host_port_text {port : Nat} (bounded : port ≤ 0xffff) {name : String}
    (token : IsToken '/' name.toList) :
    parseHostPort true (String.ofList (name.toList ++ '/' :: Nat.toDigits 10 port)) =
      ((port : Int), some name) := by
  have digits : IsToken '/' (Nat.toDigits 10 port) := by
    refine ⟨Nat.toDigits_ne_nil, fun member => ?_⟩
    have digit := Nat.isDigit_of_mem_toDigits (by decide) (by decide) member
    exact absurd digit (by decide)
  simp only [parseHostPort, String.toList_ofList, strtok_token token, strtok_last digits,
    atoi_decimal (by omega : port < 2 ^ 31), String.ofList_toList]
  rfl

theorem host_port_round_trip {host : Option String} {port : Nat} {optarg : String} (opt : Opt)
    (bounded : port ≤ 0xffff) (token : ∀ name ∈ host, IsToken '/' name.toList)
    (written : host.map (fun name => String.ofList (name.toList ++ '/' :: Nat.toDigits 10 port)) =
      some optarg) :
    readHostPort ⟨opt, optarg, true⟩ = .ok (host, port) ∧
      hostPortOf ⟨opt, optarg, true⟩ = (host, port) := by
  obtain ⟨name, rfl, rfl⟩ := Option.map_eq_some_iff.mp written
  have parsed := host_port_text bounded (token name rfl)
  have read : readHostPort ⟨opt, String.ofList (name.toList ++ '/' :: Nat.toDigits 10 port), true⟩ =
      .ok (some name, port) := by
    simp only [readHostPort, parsed]
    rw [if_neg (by omega), Int.toNat_natCast]
  exact ⟨read, (host_port_read read).1⟩

theorem payload_type_round_trip {type : Nat} {optarg : String} (opt : Opt) (bounded : type ≤ 0xff)
    (written : some (String.ofList (Nat.toDigits 10 type)) = some optarg) :
    readPayloadType ⟨opt, optarg, true⟩ = .ok type := by
  cases written
  simp only [readPayloadType, String.toList_ofList, atoi_decimal (by omega : type < 2 ^ 31)]
  rw [if_neg (by omega), Int.toNat_natCast]

theorem format_round_trip {fmt : Option FormatDesc} {optarg : String} (opt : Opt)
    (named : ∀ found ∈ fmt, fmtGetFromName registry found.name = some found)
    (written : fmt.map FormatDesc.name = some optarg) :
    ∃ found, readFormat registry ⟨opt, optarg, true⟩ = .ok found ∧
      fmtGetFromName registry optarg = fmt := by
  obtain ⟨found, rfl, rfl⟩ := Option.map_eq_some_iff.mp written
  have same := named found rfl
  refine ⟨found, ?_, same⟩
  simp only [readFormat, same]

theorem text_taken {opt : Opt} {value : Field opt} (names : Names registry haveAlsa opt value)
    {optarg : String} (written : text opt value = some optarg) :
    refusal registry haveAlsa ⟨opt, optarg, true⟩ = none ∧
      argument registry opt ⟨opt, optarg, true⟩ = value := by
  cases opt with
  | inputFile | outputFile => exact ⟨rfl, written.symm⟩
  | inputAlsa | outputAlsa =>
      have named : (value : Option String) = some optarg := written
      have sound : haveAlsa = true := names (by rw [named]; rfl)
      subst sound
      exact ⟨rfl, named.symm⟩
  | inputRtp =>
      obtain ⟨host, port⟩ := value
      obtain ⟨bounded, _, token⟩ := names
      obtain ⟨read, same⟩ := host_port_round_trip .inputRtp bounded token written
      refine ⟨?_, same⟩
      rw [refusal, parseOption, read]
      rfl
  | outputRtp =>
      obtain ⟨host, port⟩ := value
      obtain ⟨bounded, _, token⟩ := names
      obtain ⟨read, same⟩ := host_port_round_trip .outputRtp bounded token written
      refine ⟨?_, same⟩
      rw [refusal, parseOption, read]
      rfl
  | inputFormat =>
      obtain ⟨found, read, same⟩ := format_round_trip .inputFormat names written
      refine ⟨?_, same⟩
      rw [refusal, parseOption, read]
      rfl
  | outputFormat =>
      obtain ⟨found, read, same⟩ := format_round_trip .outputFormat names written
      refine ⟨?_, same⟩
      rw [refusal, parseOption, read]
      rfl
  | rtpPtIn =>
      have read := payload_type_round_trip .rtpPtIn names written
      refine ⟨?_, (payload_type_read read).1⟩
      rw [refusal, parseOption, read]
      rfl
  | rtpPtOut =>
      have read := payload_type_round_trip .rtpPtOut names written
      refine ⟨?_, (payload_type_read read).1⟩
      rw [refusal, parseOption, read]
      rfl
  | enableBenchmark | throttle | verbose =>
      cases value with
      | false => cases written
      | true => exact ⟨rfl, rfl⟩
  | help | unknown => cases written

theorem text_default {opt : Opt} {value : Field opt} (names : Names registry haveAlsa opt value)
    (isSetting : opt ∈ settings) (silent : text opt value = none) : value = field opt defaults := by
  cases opt with
  | inputFile | outputFile | inputAlsa | outputAlsa => exact silent
  | inputRtp | outputRtp =>
      obtain ⟨host, port⟩ := value
      have unnamed : host = none := Option.map_eq_none_iff.mp silent
      exact Prod.ext unnamed (names.2.1 unnamed)
  | inputFormat | outputFormat => exact Option.map_eq_none_iff.mp silent
  | rtpPtIn | rtpPtOut => cases silent
  | enableBenchmark | throttle | verbose =>
      cases value with
      | false => rfl
      | true => cases silent
  | help | unknown => rfl

theorem parse_host_port_named {copied : Bool} {hostPort : String}
    (fine : 0 ≤ (parseHostPort copied hostPort).1) :
    ∃ name, (parseHostPort copied hostPort).2 = some name ∧ IsToken '/' name.toList := by
  simp only [parseHostPort] at fine ⊢
  split_ifs at fine ⊢
  · exact absurd fine (by decide)
  · cases first : strtok '/' hostPort.toList with
    | none =>
        simp only [first] at fine
        exact absurd fine (by decide)
    | some pair =>
        obtain ⟨name, rest⟩ := pair
        have token : IsToken '/' (String.ofList name).toList := by
          rw [String.toList_ofList]
          exact strtok_is_token first
        simp only [first] at fine ⊢
        cases second : strtok '/' rest with
        | none =>
            simp only [second] at fine
            exact absurd fine (by decide)
        | some _ => exact ⟨_, rfl, token⟩

theorem host_port_names {given : Given} {host : Option String} {port : Nat}
    (read : readHostPort given = .ok (host, port)) :
    port ≤ 0xffff ∧ (host = none → port = 0) ∧ ∀ name ∈ host, IsToken '/' name.toList := by
  have bounded := (host_port_read read).2
  simp only [readHostPort] at read
  split_ifs at read with outside
  cases read
  obtain ⟨name, isName, token⟩ :=
    parse_host_port_named (Int.not_lt.mp fun negative => outside (Or.inl negative))
  refine ⟨bounded, ?_, ?_⟩
  · intro unnamed
    rw [isName] at unnamed
    cases unnamed
  · intro other member
    rw [isName] at member
    cases member
    exact token

theorem format_named {name : String} {fmt : FormatDesc} (found : fmtGetFromName registry name = some fmt) :
    fmtGetFromName registry fmt.name = some fmt := by
  have same : fmt.name = name := by simpa using List.find?_some found
  rw [same]
  exact found

theorem takes_names {given : Given} {options after : CommandOptions}
    (takes : Takes registry haveAlsa given options after) (nameable : Nameable registry haveAlsa options) :
    Nameable registry haveAlsa after := by
  intro opt
  by_cases own : given.opt = opt
  · subst own
    cases takes with
    | inputFile | outputFile | enableBenchmark | throttle | verbose => trivial
    | inputAlsa _ _ _ sound => exact fun _ => sound
    | outputAlsa _ _ _ sound => exact fun _ => sound
    | inputRtp _ read => exact host_port_names read
    | outputRtp _ read => exact host_port_names read
    | inputFormat _ found =>
        intro fmt same
        cases same
        exact format_named found
    | outputFormat _ found =>
        intro fmt same
        cases same
        exact format_named found
    | rtpPtIn _ read => exact (payload_type_read read).2
    | rtpPtOut _ read => exact (payload_type_read read).2
  · rw [takes_others takes own]
    exact nameable opt

theorem defaults_nameable : Nameable registry haveAlsa defaults := by
  intro opt
  cases opt with
  | inputFile | outputFile | enableBenchmark | throttle | verbose | help | unknown => trivial
  | inputAlsa | outputAlsa => exact nofun
  | inputRtp | outputRtp => exact ⟨Nat.zero_le _, fun _ => rfl, nofun⟩
  | inputFormat | outputFormat => exact nofun
  | rtpPtIn | rtpPtOut => exact (by decide : 3 ≤ 0xff)

theorem parsed_nameable {givens : List Given} {options : CommandOptions}
    (parsed : parseOptions registry haveAlsa givens = .ok options) : Nameable registry haveAlsa options :=
  fold_keeps (fun _ _ _ stepped => takes_names (parse_option_takes stepped)) parsed defaults_nameable

theorem render_own (options : CommandOptions) (opt : Opt) (given : Given)
    (made : (text opt (field opt options)).map (fun optarg => (⟨opt, optarg, true⟩ : Given)) =
      some given) :
    given.opt = opt := by
  obtain ⟨optarg, _, rfl⟩ := Option.map_eq_some_iff.mp made
  rfl

theorem parse_render {options : CommandOptions} (nameable : Nameable registry haveAlsa options) :
    parseOptions registry haveAlsa (render options) = .ok options := by
  have all : (render options).findSome? (refusal registry haveAlsa) = none := by
    apply List.findSome?_eq_none_iff.mpr
    intro given member
    obtain ⟨opt, _, made⟩ := List.mem_filterMap.mp member
    obtain ⟨optarg, written, rfl⟩ := Option.map_eq_some_iff.mp made
    exact (text_taken (nameable opt) written).1
  obtain ⟨after, parsed⟩ := fold_accepted (options_judged registry haveAlsa) all defaults
  suffices same : after = options by
    rw [same] at parsed
    exact parsed
  apply fields_ext
  intro opt
  by_cases isSetting : opt ∈ settings
  · rw [options_settled parsed opt, render, last_of_each (by decide) (render_own options) isSetting]
    cases written : text opt (field opt options) with
    | none => exact (text_default (nameable opt) isSetting written).symm
    | some optarg => exact (text_taken (nameable opt) written).2
  · cases opt with
    | help | unknown => rfl
    | _ => exact absurd (by decide) isSetting

/-- The options that some command line asks for, and one that does. -/
theorem command_line_normal_form (options : CommandOptions) :
    ((∃ givens, parseOptions registry haveAlsa givens = .ok options) ↔
      Nameable registry haveAlsa options) ∧
    (Nameable registry haveAlsa options ↔
      parseOptions registry haveAlsa (render options) = .ok options) := by
  refine ⟨⟨?_, ?_⟩, parse_render, parsed_nameable⟩
  · rintro ⟨givens, parsed⟩
    exact parsed_nameable parsed
  · intro nameable
    exact ⟨render options, parse_render nameable⟩

end Rendering

section Orders

variable {Lib : Type} {registry : Registry Lib} {haveAlsa : Bool}

theorem parsed_unrefused {givens : List Given} {options : CommandOptions}
    (parsed : parseOptions registry haveAlsa givens = .ok options) :
    givens.findSome? (refusal registry haveAlsa) = none := by
  cases first : givens.findSome? (refusal registry haveAlsa) with
  | none => rfl
  | some rv =>
      have refused := fold_refused (options_judged registry haveAlsa) first defaults
      rw [parseOptions, refused] at parsed
      cases parsed

theorem parsed_elsewhere {givens others : List Given} {options : CommandOptions}
    (same : ∀ opt, (others.filter fun given => given.opt = opt) = givens.filter fun given => given.opt = opt)
    (parsed : parseOptions registry haveAlsa givens = .ok options) :
    parseOptions registry haveAlsa others = .ok options := by
  have all : others.findSome? (refusal registry haveAlsa) = none := by
    apply List.findSome?_eq_none_iff.mpr
    intro given member
    have isOwn : given ∈ others.filter fun other => other.opt = given.opt := by
      simpa using member
    rw [same given.opt] at isOwn
    exact List.findSome?_eq_none_iff.mp (parsed_unrefused parsed) given (List.mem_of_mem_filter isOwn)
  obtain ⟨after, parsedOthers⟩ := fold_accepted (options_judged registry haveAlsa) all defaults
  suffices equal : after = options by
    rw [equal] at parsedOthers
    exact parsedOthers
  apply fields_ext
  intro opt
  rw [options_settled parsedOthers opt, options_settled parsed opt, lastOf, lastOf, same opt]

/-- The order of options of different kinds makes no difference. -/
theorem option_order_irrelevant {givens others : List Given}
    (same : ∀ opt, (others.filter fun given => given.opt = opt) = givens.filter fun given => given.opt = opt)
    (options : CommandOptions) :
    parseOptions registry haveAlsa givens = .ok options ↔
      parseOptions registry haveAlsa others = .ok options :=
  ⟨parsed_elsewhere same, parsed_elsewhere fun opt => (same opt).symm⟩

def throttledGsm : CommandOptions :=
  { defaults with fmtIn := some FmtGsm.fmtGsm, rtpPtIn := 96, throttle := true }

/-- A format is named behind the payload type and the switch for throttling, or before them. -/
theorem format_first_or_last :
    parseOptions Build.idle.registry false
        [⟨.throttle, "", true⟩, ⟨.rtpPtIn, "96", true⟩, ⟨.inputFormat, "gsm", true⟩] =
      .ok throttledGsm ∧
    parseOptions Build.idle.registry false
        [⟨.inputFormat, "gsm", true⟩, ⟨.rtpPtIn, "96", true⟩, ⟨.throttle, "", true⟩] =
      .ok throttledGsm := by
  have last : parseOptions Build.idle.registry false
      [⟨.throttle, "", true⟩, ⟨.rtpPtIn, "96", true⟩, ⟨.inputFormat, "gsm", true⟩] =
        .ok throttledGsm := rfl
  refine ⟨last, (option_order_irrelevant ?_ throttledGsm).mp last⟩
  intro opt
  cases opt <;> rfl

end Orders

section Outcomes

variable {Lib : Type} (build : Build Lib)

end Outcomes

end Gapk.CommandLine
