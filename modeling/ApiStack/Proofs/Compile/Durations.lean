import ApiStack.Proofs.Compile.Failures

namespace ApiStack

open Config

/-- What has passed the check is an amount of a unit, if its digits are plain ones. -/
theorem Config.exists_names_of_isSoundExpiry {span : Duration} (h : IsSoundExpiry span)
    (hd : span.HasPlainDigits) : ∃ n unit, span.Names n unit := by
  cases span with
  | hours n => exact ⟨n, .hour, .hours n⟩
  | text s => exact Duration.exists_names_of_isWellFormed h hd

namespace Compile

variable {context : Context} {api : Api}

/-- Only the time until a key expires is refused as a length of time. -/
theorem exists_key_of_duration {t : String} (h : stack context api = .error (.duration t)) :
    api.hasAuth .apiKey = true ∧ ∃ key ∈ api.apiKeys.values, ∃ span ∈ key.expiresAfter,
      span.millis = .error (.duration t) := by
  rcases arises_of_stack h with hc | ⟨id, hc⟩
  · cases hc with
    | duration ha hk hs hm => exact ⟨ha, _, hk, _, hs, hm⟩
  · cases hc

/-- Once a text is read, a time until a key expires that is written with plain digits is an amount
of a unit, and has milliseconds just if they fit a signed word of 64 bits. Compilation refuses a
length of time only if keys are made, and only one of theirs that, if its digits are plain, has too
many milliseconds. -/
theorem duration_of_read {text : String} (h : Api.read text = .ok api) (context : Context) :
    (∀ key ∈ api.apiKeys.values, ∀ span ∈ key.expiresAfter, span.HasPlainDigits →
      ∃ n unit, span.Names n unit ∧
        ((∃ millis, span.millis = .ok millis) ↔ n * unit.millis ≤ Nat.pow 2 63 - 1)) ∧
    ∀ t, stack context api = .error (.duration t) → api.hasAuth .apiKey = true ∧
      ∃ key ∈ api.apiKeys.values, ∃ span ∈ key.expiresAfter,
        span.millis = .error (.duration t) ∧ (span.HasPlainDigits →
          ∃ n unit, span.Names n unit ∧ Nat.pow 2 63 - 1 < n * unit.millis) := by
  have hnames : ∀ key ∈ api.apiKeys.values, ∀ span ∈ key.expiresAfter, span.HasPlainDigits →
      ∃ n unit, span.Names n unit ∧
        ((∃ millis, span.millis = .ok millis) ↔ n * unit.millis ≤ Nat.pow 2 63 - 1) := by
    intro key hk span hs hd
    have hsound := ((sound_of_read h).2 key hk).expiresAfter span hs
    obtain ⟨n, unit, hn⟩ := exists_names_of_isSoundExpiry hsound hd
    refine ⟨n, unit, hn, ?_⟩
    simp only [hn.has_millis_iff, exists_and_left, exists_eq', and_true]
    rfl
  refine ⟨hnames, ?_⟩
  intro t ht
  obtain ⟨ha, key, hk, span, hs, hm⟩ := exists_key_of_duration ht
  refine ⟨ha, key, hk, span, hs, hm, ?_⟩
  intro hd
  obtain ⟨n, unit, hn, hfits⟩ := hnames key hk span hs hd
  refine ⟨n, unit, hn, Nat.not_le.1 fun hle => ?_⟩
  obtain ⟨millis, hok⟩ := hfits.2 hle
  cases hok.symm.trans hm

/-- A text with a key that would expire in three hundred million years. -/
def lastingText : String :=
  "name: api\nauthentication:\n  type: API_KEY\napiKeys:\n- name: app\n" ++
  "  expiresAfter: 300000000y\n"

/-- What an API fails for where every path holds a single query. -/
def queryFailure? (api : Api) : Option Failure :=
  match (assemble .empty
    ((parts (.uniform querySchema) api).set 1 (pure queryGraph))).run .empty with
  | (.error failure, _) => some failure
  | (.ok _, _) => none

theorem stack_of_queryFailure? {pattern : String} {failure : Failure} (h : api.schema = [pattern])
    (hf : queryFailure? api = some failure) :
    stack (.uniform querySchema) api = .error failure := by
  have hp : (parts (.uniform querySchema) api).set 1 (pure queryGraph) =
      parts (.uniform querySchema) api := by
    unfold parts
    rw [schema_query h]
    rfl
  rw [queryFailure?, hp] at hf
  split at hf
  · next failure' fs hr =>
    cases hf
    exact stack_eq_error hr
  · cases hf

theorem queryFailure?_lastingText :
    (Api.read lastingText).toOption.map (fun api => (api.schema, queryFailure? api)) =
      some (["schema.graphql"], some (.duration "300000000y")) := by
  have hchars : lastingText.toList = _ :=
    toList_append_eq String.toList_ofList String.toList_ofList
  rw [Api.read_of_toList hchars]
  decide +kernel

theorem exists_stack_lastingText : ∃ api, Api.read lastingText = .ok api ∧
    stack (.uniform querySchema) api = .error (.duration "300000000y") := by
  obtain ⟨api, hr, he⟩ := exists_of_toOption_map queryFailure?_lastingText
  obtain ⟨hschema, hfailure⟩ := Prod.mk.inj he
  exact ⟨api, hr, stack_of_queryFailure? hschema hfailure⟩

theorem duration_lastingText : ∃ api, Api.read lastingText = .ok api ∧
    api.hasAuth .apiKey = true ∧ ∃ key ∈ api.apiKeys.values, ∃ span ∈ key.expiresAfter,
      span.millis = .error (.duration "300000000y") ∧ (span.HasPlainDigits →
        ∃ n unit, span.Names n unit ∧ Nat.pow 2 63 - 1 < n * unit.millis) := by
  obtain ⟨api, hr, hs⟩ := exists_stack_lastingText
  exact ⟨api, hr, (duration_of_read hr _).2 _ hs⟩

/-- A length of time that has passed the check of its text can still be refused. -/
theorem duration_refused_of_read : ∃ api, Api.read lastingText = .ok api ∧
    stack (.uniform querySchema) api = .error (.duration "300000000y") :=
  exists_stack_lastingText

end Compile

end ApiStack
