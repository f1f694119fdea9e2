import Mathlib.Data.List.Forall2

/-!
# Fallible computations

How a successful `Except` computation splits into its parts.
-/

set_option autoImplicit false

namespace Result

variable {Error Other Value Out : Type}

theorem bind_eq_ok {source : Except Error Value} {next : Value → Except Error Out}
    {out : Out} :
    (source >>= next) = .ok out ↔ ∃ value, source = .ok value ∧ next value = .ok out := by
  cases source with
  | error error => simp [bind, Except.bind]
  | ok value => simp [bind, Except.bind]

theorem bind_eq_error {source : Except Error Value} {next : Value → Except Error Out}
    {error : Error} :
    (source >>= next) = .error error ↔
      source = .error error ∨ ∃ value, source = .ok value ∧ next value = .error error := by
  cases source with
  | error error => simp [bind, Except.bind]
  | ok value => simp [bind, Except.bind]

theorem map_eq_ok {source : Except Error Value} {convert : Value → Out} {out : Out} :
    (convert <$> source) = .ok out ↔ ∃ value, source = .ok value ∧ convert value = out := by
  cases source with
  | error error => simp [Functor.map, Except.map]
  | ok value => simp [Functor.map, Except.map]

theorem mapError_eq_ok {source : Except Error Value} {convert : Error → Other}
    {value : Value} : source.mapError convert = .ok value ↔ source = .ok value := by
  cases source with
  | error error => simp [Except.mapError]
  | ok value => simp [Except.mapError]

theorem mapError_eq_error {source : Except Error Value} {convert : Error → Other}
    {error : Other} :
    source.mapError convert = .error error ↔
      ∃ cause, source = .error cause ∧ convert cause = error := by
  cases source with
  | error cause => simp [Except.mapError]
  | ok value => simp [Except.mapError]

@[simp] theorem pure_eq_ok {value out : Value} :
    (pure value : Except Error Value) = .ok out ↔ value = out := by
  simp [pure, Except.pure]

theorem mapM_eq_ok {convert : Value → Except Error Out} {values : List Value}
    {outs : List Out} :
    values.mapM convert = .ok outs ↔
      List.Forall₂ (fun value out => convert value = .ok out) values outs := by
  induction values generalizing outs with
  | nil =>
      rw [List.mapM_nil, pure_eq_ok, List.forall₂_nil_left_iff]
      exact eq_comm
  | cons value values ih =>
      rw [List.mapM_cons, bind_eq_ok]
      constructor
      · rintro ⟨first, converted, rest⟩
        obtain ⟨others, convertedRest, shape⟩ := bind_eq_ok.mp rest
        rw [pure_eq_ok] at shape
        subst shape
        exact .cons converted (ih.mp convertedRest)
      · intro related
        cases related with
        | @cons _ first _ others converted convertedRest =>
            exact ⟨first, converted, bind_eq_ok.mpr
              ⟨others, ih.mpr convertedRest, pure_eq_ok.mpr rfl⟩⟩

/-- Decoding inverts the encoding. -/
theorem fromUTF8?_eq_some {bytes : ByteArray} {text : String} :
    String.fromUTF8? bytes = some text ↔ bytes = text.toByteArray := by
  unfold String.fromUTF8?
  split
  · next valid =>
      rw [Option.some.injEq, ← String.toByteArray_inj]
      exact Iff.rfl
  · next invalid =>
      refine iff_of_false nofun ?_
      intro same
      exact invalid (same ▸ text.isValidUTF8)

end Result
