import BipaNodes.Config.Load
import BipaNodes.Lib.Decimal
import BipaNodes.Lib.Result

/-!
# What a configuration is loaded from

Loading judges the variables in order. It takes a value that is no text for an
unset variable, and is right about every other environment.
-/

set_option autoImplicit false

namespace BipaNodes.Config

/-!
## Unsigned integers
-/

/-- A decimal numeral below `2 ^ 64`, with leading zeros and one plus sign if
so written. -/
def DecimalU64 (text : String) (value : Nat) : Prop :=
  ∃ digits, (text.toList = digits ∨ text.toList = '+' :: digits) ∧ digits ≠ [] ∧
    Decimal.AllDigits digits ∧ Nat.ofDigitChars 10 digits 0 = value ∧ value < 2 ^ 64

theorem toDigit_eq_some {char : Char} {digit : Nat} :
    toDigit char = some digit ↔ char.isDigit = true ∧ digit = char.toNat - 48 := by
  unfold toDigit
  split
  · next isDigit =>
      rw [Option.some.injEq]
      exact ⟨fun same => ⟨isDigit, same.symm⟩, fun read => read.2.symm⟩
  · next notDigit => exact iff_of_false nofun fun read => notDigit read.1

theorem le_ofDigitChars (digits : List Char) (result : Nat) :
    result ≤ Nat.ofDigitChars 10 digits result := by
  induction digits generalizing result with
  | nil => exact le_rfl
  | cons char digits ih =>
      rw [Nat.ofDigitChars_cons]
      have next := ih (10 * result + (char.toNat - '0'.toNat))
      omega

theorem parseDigits_eq_ok {digits : List Char} {result value : Nat} (fits : result < 2 ^ 64) :
    parseDigits result digits = .ok value ↔ Decimal.AllDigits digits ∧
      Nat.ofDigitChars 10 digits result = value ∧ value < 2 ^ 64 := by
  induction digits generalizing result with
  | nil =>
      rw [parseDigits, Except.ok.injEq, Nat.ofDigitChars_nil]
      constructor
      · intro same
        exact ⟨nofun, same, same ▸ fits⟩
      · intro read
        exact read.2.1
  | cons char digits ih =>
      rw [parseDigits, Nat.ofDigitChars_cons]
      cases digitRead : toDigit char with
      | none =>
          refine iff_of_false nofun ?_
          intro read
          have isDigit := read.1 char List.mem_cons_self
          rw [toDigit_eq_some.mpr ⟨isDigit, rfl⟩] at digitRead
          cases digitRead
      | some digit =>
          obtain ⟨isDigit, rfl⟩ := toDigit_eq_some.mp digitRead
          have grows := le_ofDigitChars digits (10 * result + (char.toNat - '0'.toNat))
          have zero : '0'.toNat = 48 := rfl
          rw [zero] at grows ⊢
          dsimp only
          split
          · refine iff_of_false nofun ?_
            intro read
            omega
          · split
            · refine iff_of_false nofun ?_
              intro read
              omega
            · next fits =>
                rw [ih (Nat.not_le.mp fits), Nat.mul_comm result 10]
                constructor
                · intro read
                  exact ⟨List.forall_mem_cons.mpr ⟨isDigit, read.1⟩, read.2⟩
                · intro read
                  exact ⟨read.1.tail, read.2⟩

private theorem plus_not_digits {rest : List Char} : ¬ Decimal.AllDigits ('+' :: rest) :=
  fun all => absurd (all '+' List.mem_cons_self) (by decide)

theorem parseU64_eq_ok {text : String} {value : Nat} :
    parseU64 text = .ok value ↔ DecimalU64 text value := by
  have parsed (digits : List Char) : parseDigits 0 digits = .ok value ↔
      Decimal.AllDigits digits ∧ Nat.ofDigitChars 10 digits 0 = value ∧ value < 2 ^ 64 :=
    parseDigits_eq_ok (by decide)
  unfold parseU64 DecimalU64
  split
  · next empty =>
      refine iff_of_false nofun ?_
      intro numeral
      obtain ⟨digits, unsigned | signed, nonempty, _⟩ := numeral
      · exact nonempty (unsigned.symm.trans empty)
      · cases empty.symm.trans signed
  · next plus =>
      refine iff_of_false nofun ?_
      intro numeral
      obtain ⟨digits, unsigned | signed, nonempty, all, _⟩ := numeral
      · exact plus_not_digits ((unsigned.symm.trans plus) ▸ all)
      · exact nonempty (List.cons.inj (signed.symm.trans plus)).2
  · next minus =>
      refine iff_of_false nofun ?_
      intro numeral
      obtain ⟨digits, unsigned | signed, _, all, _⟩ := numeral
      · exact absurd (all '-' (unsigned.symm.trans minus ▸ List.mem_cons_self)) (by decide)
      · cases minus.symm.trans signed
  · next digits notEmpty signed =>
      rw [parsed]
      constructor
      · intro read
        exact ⟨digits, .inr signed, notEmpty, read⟩
      · intro numeral
        obtain ⟨others, unsigned | otherSigned, _, all, value⟩ := numeral
        · exact absurd (unsigned.symm.trans signed ▸ all) plus_not_digits
        · obtain rfl := (List.cons.inj (otherSigned.symm.trans signed)).2
          exact ⟨all, value⟩
  · next notEmpty notPlus notMinus notSigned =>
      rw [parsed]
      constructor
      · intro read
        exact ⟨_, .inl rfl, notEmpty, read⟩
      · intro numeral
        obtain ⟨others, unsigned | signed, _, all, value⟩ := numeral
        · exact unsigned ▸ ⟨all, value⟩
        · exact (notSigned _ signed).elim

/-!
## Environments
-/

/-- The variables in the order in which they are loaded. -/
inductive Variable where
  | databaseUrl
  | bindAddr
  | mempoolUrl
  | importIntervalSecs
  | httpClientTimeoutSecs
  deriving DecidableEq, Repr

def Variable.name : Variable → String
  | .databaseUrl => "DATABASE_URL"
  | .bindAddr => "BIND_ADDR"
  | .mempoolUrl => "MEMPOOL_URL"
  | .importIntervalSecs => "IMPORT_INTERVAL_SECS"
  | .httpClientTimeoutSecs => "HTTP_CLIENT_TIMEOUT_SECS"

def Variable.position : Variable → Nat
  | .databaseUrl => 0
  | .bindAddr => 1
  | .mempoolUrl => 2
  | .importIntervalSecs => 3
  | .httpClientTimeoutSecs => 4

theorem Variable.name_injective : Function.Injective Variable.name := by
  intro left right same
  cases left <;> cases right <;> first | rfl | exact absurd same (by decide)

theorem Variable.position_injective : Function.Injective Variable.position := by
  intro left right same
  cases left <;> cases right <;> first | rfl | cases same

def Unset (env : Env) (key : String) : Prop := env key = none ∨ env key = some "".toByteArray

def HasText (env : Env) (key text : String) : Prop :=
  text ≠ "" ∧ env key = some text.toByteArray

/-- The variable holds bytes that are no Unicode text. -/
def NotUnicode (env : Env) (key : String) : Prop :=
  ∃ bytes, env key = some bytes ∧ ∀ text : String, bytes ≠ text.toByteArray

/-- The value that a variable stands for: its default when it is unset. -/
def Denotes {Value : Type} (env : Env) (key : String) (default : Value)
    (Parsed : String → Value → Prop) (value : Value) : Prop :=
  (Unset env key ∧ value = default) ∨ ∃ text, HasText env key text ∧ Parsed text value

theorem toOption_var (env : Env) (key : String) :
    (var env key).toOption = (env key).bind String.fromUTF8? := by
  unfold var
  cases env key with
  | none => rfl
  | some bytes =>
      change _ = String.fromUTF8? bytes
      dsimp only
      cases String.fromUTF8? bytes <;> rfl

theorem get_eq_some {env : Env} {key text : String} :
    get (fun key => (var env key).toOption) key = some text ↔ HasText env key text := by
  change ((var env key).toOption).filter (· ≠ "") = some text ↔ _
  rw [toOption_var, Option.filter_eq_some_iff, Option.bind_eq_some_iff, HasText, and_comm,
    decide_eq_true_iff]
  apply and_congr_right
  intro _
  constructor
  · intro found
    obtain ⟨bytes, held, decoded⟩ := found
    rw [held, Result.fromUTF8?_eq_some.mp decoded]
  · intro held
    exact ⟨_, held, Result.fromUTF8?_eq_some.mpr rfl⟩

theorem okOr_eq_ok {Value Error : Type} {value : Option Value} {error : Error} {found : Value} :
    okOr value error = .ok found ↔ value = some found := by
  cases value with
  | none => exact iff_of_false nofun nofun
  | some value => rw [okOr, Except.ok.injEq, Option.some.injEq]

theorem okOr_eq_error {Value Error : Type} {value : Option Value} {error raised : Error} :
    okOr value error = .error raised ↔ value = none ∧ error = raised := by
  cases value with
  | none => rw [okOr, Except.error.injEq, and_iff_right rfl]
  | some value => exact iff_of_false nofun nofun

/-- A variable is unset, holds a text or holds bytes that are none. -/
theorem unset_or_hasText (env : Env) {key : String} (unicode : ¬ NotUnicode env key) :
    Unset env key ∨ ∃ text, HasText env key text := by
  cases held : env key with
  | none => exact .inl (.inl held)
  | some bytes =>
      by_cases decoded : ∃ text : String, bytes = text.toByteArray
      · obtain ⟨text, rfl⟩ := decoded
        by_cases empty : text = ""
        · rw [empty] at held
          exact .inl (.inr held)
        · exact .inr ⟨text, empty, held⟩
      · exact absurd ⟨bytes, held, not_exists.mp decoded⟩ unicode

theorem get_unset {env : Env} {key : String} (unset : Unset env key) :
    get (fun key => (var env key).toOption) key = none := by
  rw [Option.eq_none_iff_forall_ne_some]
  intro text found
  obtain ⟨nonempty, held⟩ := get_eq_some.mp found
  rcases unset with absent | empty
  · cases absent.symm.trans held
  · exact nonempty (String.toByteArray_inj.mp (Option.some.inj (held.symm.trans empty)))

theorem get_notUnicode {env : Env} {key : String} (notUnicode : NotUnicode env key) :
    get (fun key => (var env key).toOption) key = none := by
  rw [Option.eq_none_iff_forall_ne_some]
  intro text found
  obtain ⟨bytes, held, noText⟩ := notUnicode
  exact noText text (Option.some.inj (held.symm.trans (get_eq_some.mp found).2))

/-!
## One variable
-/

/-- How an optional variable is read. -/
structure Reads {Value : Type} (key : String) (default : Value) (Parsed : String → Value → Prop)
    (read : Option String → Except ConfigError Value) : Prop where
  unset : read none = .ok default
  parsed : ∀ {text value}, read (some text) = .ok value ↔ Parsed text value
  rejected : ∀ {text error}, read (some text) = .error error →
    ∃ reason, error = .invalid key text reason

def Settable {Value : Type} (env : Env) (key : String) (Parsed : String → Value → Prop) : Prop :=
  Unset env key ∨ ∃ text value, HasText env key text ∧ Parsed text value

section Step

variable {Value : Type} {key : String} {default : Value} {Parsed : String → Value → Prop}
  {read : Option String → Except ConfigError Value} {env : Env}

theorem Reads.denotes (reads : Reads key default Parsed read) {value : Value}
    (ok : read (get (fun key => (var env key).toOption) key) = .ok value) :
    NotUnicode env key ∨ Denotes env key default Parsed value := by
  by_cases notUnicode : NotUnicode env key
  · exact .inl notUnicode
  · right
    rcases unset_or_hasText env notUnicode with unset | held
    · rw [get_unset unset, reads.unset, Except.ok.injEq] at ok
      exact .inl ⟨unset, ok.symm⟩
    · obtain ⟨text, held⟩ := held
      rw [get_eq_some.mpr held] at ok
      exact .inr ⟨text, held, reads.parsed.mp ok⟩

theorem Denotes.settable {value : Value} (denotes : Denotes env key default Parsed value) :
    Settable env key Parsed := by
  rcases denotes with unset | held
  · exact .inl unset.1
  · obtain ⟨text, held, parsed⟩ := held
    exact .inr ⟨text, value, held, parsed⟩

theorem Reads.error (reads : Reads key default Parsed read) {error : ConfigError}
    (failed : read (get (fun key => (var env key).toOption) key) = .error error) :
    error.key = key ∧ ¬ Settable env key Parsed ∧ ¬ NotUnicode env key := by
  cases got : get (fun key => (var env key).toOption) key with
  | none =>
      rw [got, reads.unset] at failed
      cases failed
  | some text =>
      rw [got] at failed
      refine ⟨?_, ?_, ?_⟩
      · obtain ⟨reason, rfl⟩ := reads.rejected failed
        rfl
      · intro settable
        rcases settable with unset | held
        · cases got.symm.trans (get_unset unset)
        · obtain ⟨other, value, held, parsed⟩ := held
          obtain rfl := Option.some.inj (got.symm.trans (get_eq_some.mpr held))
          cases failed.symm.trans (reads.parsed.mpr parsed)
      · intro notUnicode
        cases got.symm.trans (get_notUnicode notUnicode)

end Step

def ParsedSecs (text : String) (duration : Nanos) : Prop :=
  ∃ secs, DecimalU64 text secs ∧ 1 ≤ secs ∧ duration = Nanos.seconds secs

theorem reads_parsePositiveSecs (key : String) (default : Nat) :
    Reads key (Nanos.seconds default) ParsedSecs (parsePositiveSecs key · default) where
  unset := rfl
  parsed := by
    intro text value
    unfold parsePositiveSecs ParsedSecs
    simp only [← parseU64_eq_ok]
    cases parseU64 text with
    | error error =>
        refine iff_of_false nofun ?_
        intro parsed
        obtain ⟨_, read, _⟩ := parsed
        cases read
    | ok secs =>
        cases secs with
        | zero =>
            refine iff_of_false nofun ?_
            intro parsed
            obtain ⟨_, read, positive, _⟩ := parsed
            cases read
            cases positive
        | succ secs =>
            constructor
            · intro same
              exact ⟨_, rfl, Nat.le_add_left _ _, (Except.ok.inj same).symm⟩
            · intro parsed
              obtain ⟨_, read, _, rfl⟩ := parsed
              cases read
              rfl
  rejected := by
    intro text error failed
    unfold parsePositiveSecs at failed
    split at failed
    · cases failed
    · next held =>
        cases held
        split at failed <;> cases failed <;> exact ⟨_, rfl⟩

theorem reads_parseOrDefault {Value : Type} (key : String) {default : String} {value : Value}
    {parse : String → Except String Value} (accepted : parse default = .ok value) :
    Reads key value (fun text value => parse text = .ok value)
      (parseOrDefault key · default parse) where
  unset := Result.mapError_eq_ok.mpr accepted
  parsed := Result.mapError_eq_ok
  rejected := by
    intro text error failed
    obtain ⟨reason, _, same⟩ := Result.mapError_eq_error.mp failed
    exact ⟨reason, same.symm⟩

variable {SocketAddr Url : Type}

def ParsedSocketAddr (parsers : Parsers SocketAddr Url) (text : String) (addr : SocketAddr) : Prop :=
  parsers.parseSocketAddr text = .ok addr

def ParsedHttpUrl (parsers : Parsers SocketAddr Url) (text : String) (url : Url) : Prop :=
  parsers.parseUrl text = .ok url ∧ (parsers.scheme url = "http" ∨ parsers.scheme url = "https")

theorem parseHttpUrl_eq_ok {parsers : Parsers SocketAddr Url} {raw : String} {url : Url} :
    parseHttpUrl parsers raw = .ok url ↔ ParsedHttpUrl parsers raw url := by
  unfold parseHttpUrl ParsedHttpUrl
  rw [Result.bind_eq_ok]
  constructor
  · intro parsed
    obtain ⟨other, read, checked⟩ := parsed
    split at checked
    · next supported =>
        obtain rfl := Result.pure_eq_ok.mp checked
        exact ⟨read, supported⟩
    · cases checked
  · intro parsed
    exact ⟨url, parsed.1, if_pos parsed.2⟩

/-!
## The whole configuration
-/

/-- The parsers accept the built-in defaults. -/
structure DefaultsAccepted (parsers : Parsers SocketAddr Url) (addr : SocketAddr) (url : Url) :
    Prop where
  bindAddr : parsers.parseSocketAddr defaultBindAddr = .ok addr
  mempoolUrl : parsers.parseUrl defaultMempoolUrl = .ok url
  scheme : parsers.scheme url = "https"

def Valid (parsers : Parsers SocketAddr Url) (env : Env) (which : Variable) : Prop :=
  match which with
  | .databaseUrl => ∃ text, HasText env "DATABASE_URL" text
  | .bindAddr => Settable env "BIND_ADDR" (ParsedSocketAddr parsers)
  | .mempoolUrl => Settable env "MEMPOOL_URL" (ParsedHttpUrl parsers)
  | .importIntervalSecs => Settable env "IMPORT_INTERVAL_SECS" ParsedSecs
  | .httpClientTimeoutSecs => Settable env "HTTP_CLIENT_TIMEOUT_SECS" ParsedSecs

structure FirstOffending (parsers : Parsers SocketAddr Url) (env : Env) (which : Variable) :
    Prop where
  offends : ¬ Valid parsers env which
  first : ∀ earlier : Variable, earlier.position < which.position → Valid parsers env earlier

/-- Every field holds what its variable stands for. -/
structure Configures (parsers : Parsers SocketAddr Url) (addr : SocketAddr) (url : Url)
    (env : Env) (config : Config SocketAddr Url) : Prop where
  databaseUrl : HasText env "DATABASE_URL" config.databaseUrl
  bindAddr : Denotes env "BIND_ADDR" addr (ParsedSocketAddr parsers) config.bindAddr
  mempoolUrl : Denotes env "MEMPOOL_URL" url (ParsedHttpUrl parsers) config.mempoolUrl
  importInterval :
    Denotes env "IMPORT_INTERVAL_SECS" (Nanos.seconds 60) ParsedSecs config.importInterval
  httpClientTimeout :
    Denotes env "HTTP_CLIENT_TIMEOUT_SECS" (Nanos.seconds 10) ParsedSecs config.httpClientTimeout

structure LoadsExactly (parsers : Parsers SocketAddr Url) (addr : SocketAddr) (url : Url)
    (env : Env) : Prop where
  accepts : (∃ config, fromEnv parsers env = .ok config) ↔
    ∀ which, Valid parsers env which
  fields : ∀ config, fromEnv parsers env = .ok config → Configures parsers addr url env config
  names : ∀ error, fromEnv parsers env = .error error →
    ∃ which, FirstOffending parsers env which ∧ error.key = which.name

/-- An offending variable at which loading stops. -/
def Fails (parsers : Parsers SocketAddr Url) (env : Env) (which : Variable) : Prop :=
  ¬ Valid parsers env which ∧ (which = .databaseUrl ∨ ¬ NotUnicode env which.name)

section Load

variable {parsers : Parsers SocketAddr Url} {addr : SocketAddr} {url : Url} {env : Env}

theorem reads_bindAddr (defaults : DefaultsAccepted parsers addr url) :
    Reads "BIND_ADDR" addr (ParsedSocketAddr parsers)
      (parseOrDefault "BIND_ADDR" · defaultBindAddr parsers.parseSocketAddr) :=
  reads_parseOrDefault "BIND_ADDR" defaults.bindAddr

theorem reads_mempoolUrl (defaults : DefaultsAccepted parsers addr url) :
    Reads "MEMPOOL_URL" url (ParsedHttpUrl parsers)
      (parseOrDefault "MEMPOOL_URL" · defaultMempoolUrl (parseHttpUrl parsers)) := by
  have accepted := parseHttpUrl_eq_ok.mpr ⟨defaults.mempoolUrl, .inr defaults.scheme⟩
  have reads := reads_parseOrDefault "MEMPOOL_URL" accepted
  exact ⟨reads.unset, reads.parsed.trans parseHttpUrl_eq_ok, reads.rejected⟩

/-- What a loaded configuration says about the environment. A value that is no
text has been lost. -/
structure Loaded (parsers : Parsers SocketAddr Url) (addr : SocketAddr) (url : Url)
    (env : Env) (config : Config SocketAddr Url) : Prop where
  databaseUrl : HasText env "DATABASE_URL" config.databaseUrl
  bindAddr : NotUnicode env "BIND_ADDR" ∨
    Denotes env "BIND_ADDR" addr (ParsedSocketAddr parsers) config.bindAddr
  mempoolUrl : NotUnicode env "MEMPOOL_URL" ∨
    Denotes env "MEMPOOL_URL" url (ParsedHttpUrl parsers) config.mempoolUrl
  importInterval : NotUnicode env "IMPORT_INTERVAL_SECS" ∨
    Denotes env "IMPORT_INTERVAL_SECS" (Nanos.seconds 60) ParsedSecs config.importInterval
  httpClientTimeout : NotUnicode env "HTTP_CLIENT_TIMEOUT_SECS" ∨
    Denotes env "HTTP_CLIENT_TIMEOUT_SECS" (Nanos.seconds 10) ParsedSecs config.httpClientTimeout

theorem fromEnv_ok (defaults : DefaultsAccepted parsers addr url) {config : Config SocketAddr Url}
    (ok : fromEnv parsers env = .ok config) : Loaded parsers addr url env config := by
  unfold fromEnv fromLookup at ok
  obtain ⟨databaseUrl, databaseUrlOk, ok⟩ := Result.bind_eq_ok.mp ok
  obtain ⟨bindAddr, bindAddrOk, ok⟩ := Result.bind_eq_ok.mp ok
  obtain ⟨mempoolUrl, mempoolUrlOk, ok⟩ := Result.bind_eq_ok.mp ok
  obtain ⟨importInterval, importIntervalOk, ok⟩ := Result.bind_eq_ok.mp ok
  obtain ⟨httpClientTimeout, httpClientTimeoutOk, ok⟩ := Result.bind_eq_ok.mp ok
  obtain rfl := Result.pure_eq_ok.mp ok
  refine ⟨?_, (reads_bindAddr defaults).denotes bindAddrOk,
    (reads_mempoolUrl defaults).denotes mempoolUrlOk,
    (reads_parsePositiveSecs _ _).denotes importIntervalOk,
    (reads_parsePositiveSecs _ _).denotes httpClientTimeoutOk⟩
  exact get_eq_some.mp (okOr_eq_ok.mp databaseUrlOk)

theorem Valid.not_fails {which : Variable} (valid : Valid parsers env which) :
    ¬ Fails parsers env which :=
  fun fails => fails.1 valid

theorem not_fails_of_denotes {Value : Type} {default value : Value}
    {Parsed : String → Value → Prop} (which : Variable) (isOptional : which ≠ .databaseUrl)
    (valid : Valid parsers env which = Settable env which.name Parsed)
    (read : NotUnicode env which.name ∨ Denotes env which.name default Parsed value) :
    ¬ Fails parsers env which := by
  intro fails
  rcases read with notUnicode | denotes
  · exact fails.2.elim isOptional (· notUnicode)
  · rw [Fails, valid] at fails
    exact fails.1 denotes.settable

/-- An optional variable that was read does not stop the loading. -/
theorem Reads.not_fails {Value : Type} {default value : Value} {Parsed : String → Value → Prop}
    {read : Option String → Except ConfigError Value} (which : Variable)
    (reads : Reads which.name default Parsed read) (isOptional : which ≠ .databaseUrl)
    (valid : Valid parsers env which = Settable env which.name Parsed)
    (ok : read (get (fun key => (var env key).toOption) which.name) = .ok value) :
    ¬ Fails parsers env which :=
  not_fails_of_denotes which isOptional valid (reads.denotes ok)

theorem Reads.fails {Value : Type} {default : Value} {Parsed : String → Value → Prop}
    {read : Option String → Except ConfigError Value} (which : Variable)
    (reads : Reads which.name default Parsed read)
    (valid : Valid parsers env which = Settable env which.name Parsed) {error : ConfigError}
    (failed : read (get (fun key => (var env key).toOption) which.name) = .error error) :
    Fails parsers env which ∧ error.key = which.name := by
  obtain ⟨key, notSettable, unicode⟩ := reads.error failed
  rw [Fails, valid]
  exact ⟨⟨notSettable, .inr unicode⟩, key⟩

/-- None of the first `count` variables stops the loading. -/
def Passed (parsers : Parsers SocketAddr Url) (env : Env) (count : Nat) : Prop :=
  ∀ earlier : Variable, earlier.position < count → ¬ Fails parsers env earlier

theorem Passed.next {which : Variable} (passed : Passed parsers env which.position)
    (own : ¬ Fails parsers env which) : Passed parsers env (which.position + 1) := by
  intro earlier before
  rcases Nat.lt_succ_iff_lt_or_eq.mp before with earlierStill | same
  · exact passed earlier earlierStill
  · rwa [Variable.position_injective same]

theorem fromEnv_error (defaults : DefaultsAccepted parsers addr url) {error : ConfigError}
    (failed : fromEnv parsers env = .error error) :
    ∃ which, Fails parsers env which ∧ error.key = which.name ∧
      ∀ earlier : Variable, earlier.position < which.position → ¬ Fails parsers env earlier := by
  unfold fromEnv fromLookup at failed
  have passed : Passed parsers env Variable.databaseUrl.position := nofun
  rcases Result.bind_eq_error.mp failed with missing | ⟨_, databaseUrlOk, failed⟩
  · obtain ⟨noText, rfl⟩ := okOr_eq_error.mp missing
    refine ⟨.databaseUrl, ⟨?_, .inl rfl⟩, rfl, passed⟩
    intro valid
    obtain ⟨text, held⟩ := valid
    cases noText.symm.trans (get_eq_some.mpr held)
  have passed : Passed parsers env Variable.bindAddr.position :=
    passed.next (Valid.not_fails ⟨_, get_eq_some.mp (okOr_eq_ok.mp databaseUrlOk)⟩)
  have reads := reads_bindAddr defaults
  rcases Result.bind_eq_error.mp failed with stopped | ⟨_, bindAddrOk, failed⟩
  · obtain ⟨fails, key⟩ := reads.fails .bindAddr rfl stopped
    exact ⟨_, fails, key, passed⟩
  have passed : Passed parsers env Variable.mempoolUrl.position :=
    passed.next (reads.not_fails .bindAddr nofun rfl bindAddrOk)
  have reads := reads_mempoolUrl defaults
  rcases Result.bind_eq_error.mp failed with stopped | ⟨_, mempoolUrlOk, failed⟩
  · obtain ⟨fails, key⟩ := reads.fails .mempoolUrl rfl stopped
    exact ⟨_, fails, key, passed⟩
  have passed : Passed parsers env Variable.importIntervalSecs.position :=
    passed.next (reads.not_fails .mempoolUrl nofun rfl mempoolUrlOk)
  have reads := reads_parsePositiveSecs "IMPORT_INTERVAL_SECS" defaultImportIntervalSecs
  rcases Result.bind_eq_error.mp failed with stopped | ⟨_, importIntervalOk, failed⟩
  · obtain ⟨fails, key⟩ := reads.fails .importIntervalSecs rfl stopped
    exact ⟨_, fails, key, passed⟩
  have passed : Passed parsers env Variable.httpClientTimeoutSecs.position :=
    passed.next (reads.not_fails .importIntervalSecs nofun rfl importIntervalOk)
  have reads := reads_parsePositiveSecs "HTTP_CLIENT_TIMEOUT_SECS" defaultHttpClientTimeoutSecs
  rcases Result.bind_eq_error.mp failed with stopped | ⟨_, _, returned⟩
  · obtain ⟨fails, key⟩ := reads.fails .httpClientTimeoutSecs rfl stopped
    exact ⟨_, fails, key, passed⟩
  · cases returned

theorem Loaded.not_fails {config : Config SocketAddr Url}
    (loaded : Loaded parsers addr url env config) (which : Variable) :
    ¬ Fails parsers env which := by
  cases which with
  | databaseUrl => exact Valid.not_fails ⟨_, loaded.databaseUrl⟩
  | bindAddr => exact not_fails_of_denotes .bindAddr nofun rfl loaded.bindAddr
  | mempoolUrl => exact not_fails_of_denotes .mempoolUrl nofun rfl loaded.mempoolUrl
  | importIntervalSecs =>
      exact not_fails_of_denotes .importIntervalSecs nofun rfl loaded.importInterval
  | httpClientTimeoutSecs =>
      exact not_fails_of_denotes .httpClientTimeoutSecs nofun rfl loaded.httpClientTimeout

theorem not_notUnicode_of_settable {Value : Type} {key : String} {Parsed : String → Value → Prop}
    (settable : Settable env key Parsed) : ¬ NotUnicode env key := by
  intro notUnicode
  obtain ⟨bytes, held, noText⟩ := notUnicode
  rcases settable with (absent | empty) | text
  · cases held.symm.trans absent
  · exact noText "" (Option.some.inj (held.symm.trans empty))
  · obtain ⟨text, _, ⟨_, heldText⟩, _⟩ := text
    exact noText text (Option.some.inj (held.symm.trans heldText))

theorem Loaded.configures {config : Config SocketAddr Url}
    (loaded : Loaded parsers addr url env config)
    (valid : ∀ which, Valid parsers env which) : Configures parsers addr url env config where
  databaseUrl := loaded.databaseUrl
  bindAddr := loaded.bindAddr.resolve_left (not_notUnicode_of_settable (valid .bindAddr))
  mempoolUrl := loaded.mempoolUrl.resolve_left (not_notUnicode_of_settable (valid .mempoolUrl))
  importInterval :=
    loaded.importInterval.resolve_left (not_notUnicode_of_settable (valid .importIntervalSecs))
  httpClientTimeout :=
    loaded.httpClientTimeout.resolve_left
      (not_notUnicode_of_settable (valid .httpClientTimeoutSecs))

theorem exists_firstOffending {which : Variable} (offends : ¬ Valid parsers env which) :
    ∃ first, FirstOffending parsers env first ∧ first.position ≤ which.position := by
  induction position : which.position using Nat.strongRecOn generalizing which with
  | _ position ih =>
      by_cases isFirst : ∀ earlier : Variable, earlier.position < which.position →
          Valid parsers env earlier
      · exact ⟨which, ⟨offends, isFirst⟩, position.le⟩
      · simp only [not_forall] at isFirst
        obtain ⟨earlier, before, earlierOffends⟩ := isFirst
        obtain ⟨first, isFirst, le⟩ := ih _ (by omega) earlierOffends rfl
        exact ⟨first, isFirst, by omega⟩

theorem FirstOffending.unique {left right : Variable}
    (leftFirst : FirstOffending parsers env left) (rightFirst : FirstOffending parsers env right) :
    left = right := by
  rcases Nat.lt_trichotomy left.position right.position with before | same | after
  · exact absurd (rightFirst.first left before) leftFirst.offends
  · exact Variable.position_injective same
  · exact absurd (leftFirst.first right after) rightFirst.offends

/-- Loading is right about exactly the environments whose first offending
variable, if any, is the required one or holds a text. -/
theorem loads_exactly_iff (defaults : DefaultsAccepted parsers addr url) :
    LoadsExactly parsers addr url env ↔ ∀ which, FirstOffending parsers env which →
      which = .databaseUrl ∨ ¬ NotUnicode env which.name := by
  constructor
  · intro exact which first
    cases loaded : fromEnv parsers env with
    | ok config => exact absurd (exact.accepts.mp ⟨config, loaded⟩ which) first.offends
    | error error =>
        obtain ⟨named, namedFirst, key⟩ := exact.names error loaded
        obtain ⟨stopped, fails, stoppedKey, _⟩ := fromEnv_error defaults loaded
        obtain rfl := first.unique namedFirst
        obtain rfl := Variable.name_injective (key.symm.trans stoppedKey)
        exact fails.2
  · intro text
    have fails {which : Variable} (first : FirstOffending parsers env which) :
        Fails parsers env which := ⟨first.offends, text which first⟩
    have allValid {config : Config SocketAddr Url} (ok : fromEnv parsers env = .ok config)
        (which : Variable) : Valid parsers env which := by
      by_contra offends
      obtain ⟨first, isFirst, _⟩ := exists_firstOffending offends
      exact (fromEnv_ok defaults ok).not_fails first (fails isFirst)
    refine ⟨⟨?_, ?_⟩, ?_, ?_⟩
    · intro loaded
      obtain ⟨config, ok⟩ := loaded
      exact allValid ok
    · intro valid
      cases loaded : fromEnv parsers env with
      | ok config => exact ⟨config, rfl⟩
      | error error =>
          obtain ⟨stopped, stoppedFails, _⟩ := fromEnv_error defaults loaded
          exact absurd stoppedFails (valid stopped).not_fails
    · intro config ok
      exact (fromEnv_ok defaults ok).configures (allValid ok)
    · intro error failed
      obtain ⟨stopped, stoppedFails, key, firstFails⟩ := fromEnv_error defaults failed
      refine ⟨stopped, ⟨stoppedFails.1, ?_⟩, key⟩
      intro earlier before
      by_contra offends
      obtain ⟨first, isFirst, le⟩ := exists_firstOffending offends
      exact firstFails first (by omega) (fails isFirst)

end Load

/-- Parsers that know the defaults and keep them as texts. -/
def sampleParsers : Parsers String String where
  parseSocketAddr text :=
    if text = defaultBindAddr then .ok text else .error "invalid socket address syntax"
  parseUrl text :=
    if text = defaultMempoolUrl then .ok text else .error "relative URL without a base"
  scheme _ := "https"

/-- An environment with a database URL and these bytes as the bind address. -/
def sampleEnv (bindAddr : ByteArray) : Env := fun key =>
  if key = "DATABASE_URL" then some "postgres://localhost/bipa".toByteArray
  else if key = "BIND_ADDR" then some bindAddr
  else none

theorem loads_exactly_iff_sample :
    LoadsExactly sampleParsers defaultBindAddr defaultMempoolUrl
      (sampleEnv "127.0.0.1".toByteArray) := by
  apply (loads_exactly_iff ⟨rfl, rfl, rfl⟩).mpr
  intro which first
  right
  intro notUnicode
  obtain ⟨bytes, held, noText⟩ := notUnicode
  unfold sampleEnv at held
  split at held
  · exact noText _ (Option.some.inj held).symm
  · split at held
    · exact noText _ (Option.some.inj held).symm
    · cases held

/-- A bind address that is not Unicode is dropped, and the default takes its place. -/
theorem not_unicode_bind_addr_dropped :
    fromEnv sampleParsers (sampleEnv ⟨#[0xff]⟩) =
        .ok { databaseUrl := "postgres://localhost/bipa", bindAddr := defaultBindAddr,
              mempoolUrl := defaultMempoolUrl, importInterval := Nanos.seconds 60,
              httpClientTimeout := Nanos.seconds 10 } ∧
      ¬ LoadsExactly sampleParsers defaultBindAddr defaultMempoolUrl (sampleEnv ⟨#[0xff]⟩) := by
  have loaded : fromEnv sampleParsers (sampleEnv ⟨#[0xff]⟩) =
      .ok { databaseUrl := "postgres://localhost/bipa", bindAddr := defaultBindAddr,
            mempoolUrl := defaultMempoolUrl, importInterval := Nanos.seconds 60,
            httpClientTimeout := Nanos.seconds 10 } := by decide
  refine ⟨loaded, ?_⟩
  intro exact
  have valid : Valid sampleParsers (sampleEnv ⟨#[0xff]⟩) .bindAddr :=
    exact.accepts.mp ⟨_, loaded⟩ .bindAddr
  apply not_notUnicode_of_settable valid
  refine ⟨⟨#[0xff]⟩, rfl, ?_⟩
  intro text same
  have decoded := Result.fromUTF8?_eq_some.mpr same
  have undecodable : String.fromUTF8? ⟨#[0xff]⟩ = none := by decide
  cases undecodable.symm.trans decoded

end BipaNodes.Config
