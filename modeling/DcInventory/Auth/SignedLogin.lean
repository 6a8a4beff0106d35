import DcInventory.Auth.InitData
import DcInventory.Library.JsonReading
import DcInventory.Library.Fallible

/-
  This file proves that the data of a login cannot be put
  together differently from how it was signed, and when it
  is refused with another error than its own.

  Key definitions include:
    * `InitData.UserOverruns`
    * `InitData.LoginSafe`

  Key theorems include:
    * `InitData.field_of_signed`
    * `InitData.user_of_signed`
    * `InitData.login_safe_iff`
-/

namespace InitData

------------------------------------------------------------
-- Lines
------------------------------------------------------------

/- Where the first sign of equality stands is determined. -/
theorem line_inj
    {k k' v v' : Text}
    (hKey : '=' ∉ k)
    (hKey' : '=' ∉ k')
    (h : k ++ '=' :: v = k' ++ '=' :: v') :
    k = k' ∧ v = v' := by
  induction k generalizing k' with
  | nil =>
      cases k' with
      | nil => exact ⟨rfl, (List.cons.inj h).2⟩
      | cons c cs =>
          rw [← (List.cons.inj h).1] at hKey'
          exact absurd List.mem_cons_self hKey'
  | cons c cs ih =>
      cases k' with
      | nil =>
          rw [(List.cons.inj h).1] at hKey
          exact absurd List.mem_cons_self hKey
      | cons d ds =>
          rcases List.cons.inj h with ⟨rfl, hRest⟩
          rw [List.mem_cons, not_or] at hKey hKey'
          rcases ih hKey.2 hKey'.2 hRest with ⟨rfl, rfl⟩
          exact ⟨rfl, rfl⟩

theorem mem_of_mem_cut
    {v part : Text}
    (h : part ∈ Lines.cut '\n' v) :
    ∀ c ∈ part, c ∈ v := by
  induction v generalizing part with
  | nil =>
      rw [List.mem_singleton.mp h]
      exact List.forall_mem_nil _
  | cons c cs ih =>
      rw [Lines.cut] at h
      split at h
      · rcases List.mem_cons.mp h with rfl | hRest
        · exact List.forall_mem_nil _
        · exact fun d hd => List.mem_cons_of_mem c (ih hRest d hd)
      · cases hParts : Lines.cut '\n' cs with
        | nil => exact absurd hParts (Lines.cut_ne_nil cs)
        | cons first parts =>
            rw [hParts] at h ih
            rcases List.mem_cons.mp h with rfl | hRest
            · intro d hd
              rcases List.mem_cons.mp hd with rfl | hd
              · exact List.mem_cons_self
              · exact List.mem_cons_of_mem c
                  (ih List.mem_cons_self d hd)
            · exact fun d hd => List.mem_cons_of_mem c
                (ih (List.mem_cons_of_mem first hRest) d hd)

theorem mem_checkedLines
    {fields : Fields}
    {text : Text} :
    text ∈ checkedLines fields ↔
      ∃ f ∈ fields, f.1 ≠ hashName ∧ line f = text := by
  unfold checkedLines
  simp only [List.mem_map, List.mem_filter,
    List.mem_insertionSort, decide_eq_true_eq]
  constructor
  · rintro ⟨f, ⟨hMem, hName⟩, hLine⟩
    exact ⟨f, hMem, hName, hLine⟩
  · rintro ⟨f, hMem, hName, hLine⟩
    exact ⟨f, ⟨hMem, hName⟩, hLine⟩

/- The lines of signed fields are those of the text. -/
theorem cut_signed (F : SignedFields) :
    Lines.cut '\n' (dataCheckString F.fields) =
      checkedLines F.fields := by
  apply Lines.cut_join_solid
  · rcases F.user with ⟨u, limits, object, hUser, _⟩
    have hLine := mem_checkedLines.mpr
      ⟨(userName, u), hUser,
        (by decide : userName ≠ hashName), rfl⟩
    exact List.ne_nil_of_mem hLine
  · intro part hPart hBreak
    rcases mem_checkedLines.mp hPart with ⟨f, hf, _, rfl⟩
    rcases F.oneLine f hf with ⟨_, hKey, hValue⟩
    rcases List.mem_append.mp hBreak with hIn | hIn
    · exact hKey hIn
    · rcases List.mem_cons.mp hIn with hEq | hIn
      · exact absurd hEq (by decide)
      · exact hValue hIn

/-
  A field with the text of signed fields is one of them, or
  goes on with more of them on the next lines.
-/
theorem field_of_signed
    {F : SignedFields}
    {fields : Fields}
    {key value : Text}
    (hText : dataCheckString F.fields = dataCheckString fields)
    (hMem : (key, value) ∈ fields)
    (hHash : key ≠ hashName)
    (hSolid : '=' ∉ key) :
    ∃ w, (key, w) ∈ F.fields ∧ (value = w ∨
      ∃ rest, value = w ++ '\n' :: rest ∧ '=' ∈ rest) := by
  have hLine : line (key, value) ∈ checkedLines fields :=
    mem_checkedLines.mpr ⟨(key, value), hMem, hHash, rfl⟩
  have hCut := cut_signed F
  rw [hText] at hCut
  unfold dataCheckString at hCut
  rw [Lines.cut_join (List.ne_nil_of_mem hLine)] at hCut
  have hParts : ∀ part ∈ Lines.cut '\n' (line (key, value)),
      ∃ f ∈ F.fields, line f = part := by
    intro part hPart
    have hAll : part ∈ checkedLines F.fields := by
      rw [← hCut]
      exact List.mem_flatMap.mpr ⟨_, hLine, hPart⟩
    rcases mem_checkedLines.mp hAll with ⟨f, hf, _, hEq⟩
    exact ⟨f, hf, hEq⟩
  have hSame : ∀ f ∈ F.fields, ∀ w, line f = key ++ '=' :: w →
      (key, w) ∈ F.fields := by
    intro f hf w hEq
    rcases line_inj (F.oneLine f hf).1 hSolid hEq with
      ⟨rfl, rfl⟩
    exact hf
  have hCut := @Lines.cut_cases _ _ '\n' (line (key, value))
  rcases hCut with
    ⟨_, hOne⟩ | ⟨rest, hSplit, hFirst⟩
  · rcases hParts (line (key, value))
      (hOne ▸ List.mem_singleton.mpr rfl) with ⟨f, hf, hEq⟩
    exact ⟨value, hSame f hf value hEq, Or.inl rfl⟩
  · rw [hFirst] at hParts
    rcases hParts _ List.mem_cons_self with ⟨f, hf, hEq⟩
    have hJoined : key ++ '=' :: value =
        f.1 ++ '=' :: (f.2 ++ '\n' :: rest) := by
      calc key ++ '=' :: value = line (key, value) := rfl
        _ = line f ++ '\n' :: rest := by rw [hEq]; exact hSplit
        _ = f.1 ++ '=' :: (f.2 ++ '\n' :: rest) := by
          simp [line]
    rcases line_inj hSolid (F.oneLine f hf).1 hJoined with
      ⟨rfl, rfl⟩
    refine ⟨f.2, hf, Or.inr ⟨rest, rfl, ?_⟩⟩
    cases hRest : Lines.cut '\n' rest with
    | nil => exact absurd hRest (Lines.cut_ne_nil rest)
    | cons part parts =>
        have hPart : part ∈ Lines.cut '\n' rest := by
          rw [hRest]
          exact List.mem_cons_self
        rcases hParts part (List.mem_cons_of_mem _ hPart) with
          ⟨g, _, rfl⟩
        exact mem_of_mem_cut hPart '=' (by simp [line])

theorem value_of_signed
    {F : SignedFields}
    {key v w : Text}
    (hv : (key, v) ∈ F.fields)
    (hw : (key, w) ∈ F.fields) :
    v = w := by
  have hFind := Table.find_of_mem F.keys hv
  rw [Table.find_of_mem F.keys hw] at hFind
  exact (Prod.mk.inj (Option.some.inj hFind)).2.symm

------------------------------------------------------------
-- Dates
------------------------------------------------------------

theorem mem_dropWhile_of_solid
    {p : Char → Bool}
    {c : Char}
    (hSolid : p c = false)
    {v : Text}
    (hMem : c ∈ v) :
    c ∈ v.dropWhile p := by
  have hSplit := List.takeWhile_append_dropWhile
    (p := p) (l := v)
  rw [← hSplit] at hMem
  rcases List.mem_append.mp hMem with hTaken | hLeft
  · have hPass := List.mem_takeWhile_imp hTaken
    rw [hSolid] at hPass
    cases hPass
  · exact hLeft

theorem mem_strip_of_solid
    {c : Char}
    (hSolid : Text.isSpace c = false)
    {v : Text}
    (hMem : c ∈ v) :
    c ∈ Text.strip v := by
  unfold Text.strip
  apply List.mem_reverse.mpr
  apply mem_dropWhile_of_solid hSolid
  apply List.mem_reverse.mpr
  exact mem_dropWhile_of_solid hSolid hMem

/- A number has digits and marks between them. -/
theorem mem_of_digitsOf
    {v ds : Text}
    (h : digitsOf v = some ds) :
    ∀ c ∈ v, c.isDigit = true ∨ c = '_' := by
  induction v using digitsOf.induct generalizing ds with
  | case1 => cases h
  | case2 c hDigit =>
      exact List.forall_mem_singleton.mpr (Or.inl hDigit)
  | case3 c hDigit =>
      rw [digitsOf, if_neg hDigit] at h
      cases h
  | case4 c cs hDigit ih =>
      rw [digitsOf, if_pos hDigit] at h
      rcases Option.map_eq_some_iff.mp h with ⟨ds', hRest, _⟩
      exact List.forall_mem_cons.mpr ⟨Or.inl hDigit,
        List.forall_mem_cons.mpr ⟨Or.inr rfl, ih hRest⟩⟩
  | case5 c cs hDigit =>
      rw [digitsOf, if_neg hDigit] at h
      cases h
  | case6 c cs hSome hMark hDigit ih =>
      rw [digitsOf, if_pos hDigit] at h
      · rcases Option.map_eq_some_iff.mp h with ⟨ds', hRest, _⟩
        exact List.forall_mem_cons.mpr ⟨Or.inl hDigit, ih hRest⟩
      · exact hSome
      · exact hMark
  | case7 c cs hSome hMark hDigit =>
      rw [digitsOf, if_neg hDigit] at h
      · cases h
      · exact hSome
      · exact hMark

/- No number is read from a text with a sign of equality. -/
theorem not_mem_of_parseInt
    {v : Text}
    {n : Int}
    (h : parseInt v = some n) :
    '=' ∉ v := by
  intro hMem
  have hStrip : '=' ∈ Text.strip v :=
    mem_strip_of_solid (by decide) hMem
  have hNone : ∀ cs : Text, '=' ∈ cs → parseNat cs = none := by
    intro cs hIn
    cases hDigits : digitsOf cs with
    | none =>
        unfold parseNat
        rw [hDigits]
        rfl
    | some ds =>
        rcases mem_of_digitsOf hDigits '=' hIn with hBad | hBad
        · exact absurd hBad (by decide)
        · exact absurd hBad (by decide)
  have hTail : ∀ c cs, Text.strip v = c :: cs → c ≠ '=' →
      '=' ∈ cs := by
    intro c cs hEq hNe
    rw [hEq] at hStrip
    rcases List.mem_cons.mp hStrip with hHead | hRest
    · exact absurd hHead.symm hNe
    · exact hRest
  unfold parseInt at h
  split at h
  · rename_i cs hEq
    rw [hNone cs (hTail _ _ hEq (by decide))] at h
    cases h
  · rename_i cs hEq
    rw [hNone cs (hTail _ _ hEq (by decide))] at h
    cases h
  · rw [hNone _ hStrip] at h
    cases h

theorem not_mem_of_readInt
    {U : Unicode}
    {v : Text}
    {n : Int}
    (h : U.readInt v = some n) :
    '=' ∉ v := by
  intro hMem
  unfold Unicode.readInt at h
  simp only at h
  split at h
  · cases h
  · apply not_mem_of_parseInt h
    have hMapped : U.asciiDigit '=' ∈ v.map U.asciiDigit :=
      List.mem_map_of_mem hMem
    have hSame : U.asciiDigit '=' = '=' := rfl
    rw [hSame] at hMapped
    exact hMapped

/- A date that is read stands so in the signed fields. -/
theorem authDate_of_signed
    {env : Env}
    {F : SignedFields}
    {fields : Fields}
    {raw : Text}
    {n : Int}
    (hText : dataCheckString F.fields = dataCheckString fields)
    (hMem : (authDateName, raw) ∈ fields)
    (hRead : env.unicode.readInt raw = some n) :
    (authDateName, raw) ∈ F.fields := by
  rcases field_of_signed hText hMem (by decide) (by decide) with
    ⟨w, hw, hOne | ⟨rest, hMore, hEquals⟩⟩
  · rw [hOne]
    exact hw
  · apply absurd _ (not_mem_of_readInt hRead)
    rw [hMore]
    exact List.mem_append_right _
      (List.mem_cons_of_mem _ hEquals)

------------------------------------------------------------
-- Users
------------------------------------------------------------

def firstLine (value : Text) : Text :=
  value.takeWhile (· ≠ '\n')

theorem firstLine_of_solid
    {v : Text}
    (h : '\n' ∉ v) :
    firstLine v = v := by
  unfold firstLine
  rw [List.takeWhile_eq_self_iff]
  intro c hc
  rw [decide_eq_true_eq]
  rintro rfl
  exact h hc

/-
  The user that is read is the one that was signed, or the
  signed one is beyond the limits of the reader.
-/
theorem user_of_signed
    {F : SignedFields}
    {fields : Fields}
    {raw : Text}
    (hText : dataCheckString F.fields = dataCheckString fields)
    (hMem : (userName, raw) ∈ fields)
    (limits : JsonReader.Limits) :
    (JsonReader.overruns limits 0
        (JsonReader.lex (firstLine raw)) = false ∧
      (JsonReader.loads limits raw = .error .malformed ∨
        (userName, raw) ∈ F.fields ∧ ∃ object,
          JsonReader.loads limits raw = .ok (.obj object))) ∨
    (JsonReader.overruns limits 0
        (JsonReader.lex (firstLine raw)) = true ∧
      ∃ failure, JsonReader.loads limits raw =
        .error failure ∧ JsonReader.isOverrun failure = true) := by
  rcases F.user with ⟨u, limits₀, object, hUser, hValid⟩
  have hLine := (F.oneLine _ hUser).2.2
  rcases field_of_signed hText hMem (by decide) (by decide) with
    ⟨w, hw, hOne | ⟨rest, hMore, hEquals⟩⟩
  · rw [value_of_signed hw hUser] at hOne
    subst hOne
    rw [firstLine_of_solid hLine]
    rcases JsonReader.loads_iff_overruns hValid limits with
      ⟨hFits, hSame⟩ | hOver
    · exact Or.inl ⟨hFits, Or.inr ⟨hUser, object, hSame⟩⟩
    · exact Or.inr hOver
  · rw [value_of_signed hw hUser] at hMore
    subst hMore
    have hFirst : firstLine (u ++ '\n' :: rest) = u := by
      unfold firstLine
      rw [JsonReader.takeWhile_stop (by decide)]
      exact firstLine_of_solid hLine
    rw [hFirst]
    rcases JsonReader.loads_append hValid
      ⟨'=', hEquals, by decide⟩ limits with
      ⟨hFits, hBad⟩ | hOver
    · exact Or.inl ⟨hFits, Or.inl hBad⟩
    · exact Or.inr hOver

------------------------------------------------------------
-- Checks
------------------------------------------------------------

theorem mem_of_get
    {fields : Fields}
    {key value : Text}
    (h : fields.get key = some value) :
    (key, value) ∈ fields := by
  rcases Option.map_eq_some_iff.mp h with ⟨f, hFind, rfl⟩
  have hKey := Table.key_of_find hFind
  rw [← hKey]
  exact Table.mem_of_find hFind

section Checking

variable {env : Env}
variable {botToken initData : Text}
variable {maxAge now : Int}
variable {fields : Fields}

theorem parseUniqueFields_error
    {failure : Failure}
    (h : parseUniqueFields initData = .error failure) :
    failure.isInitData = true := by
  unfold parseUniqueFields at h
  split at h
  · cases h
    rfl
  · split at h
    · cases h
      rfl
    · split at h
      · cases h
        rfl
      · cases h

theorem verifiedFields_ok
    (h : verifiedFields env botToken initData = .ok fields) :
    parseUniqueFields initData = .ok fields ∧
      ∃ provided, fields.get hashName = some provided ∧
        expectedHash env fields botToken =
          provided.map Char.toLower := by
  unfold verifiedFields at h
  split at h
  · cases h
  · cases hParse : parseUniqueFields initData with
    | error failure =>
        rw [hParse] at h
        cases h
    | ok parsed =>
        rw [hParse] at h
        simp only [bind, Except.bind] at h
        split at h
        · cases h
        · rename_i provided hProvided
          split at h
          · cases h
          · split at h
            · cases h
            · rename_i hHash
              cases h
              rw [ne_eq, not_not] at hHash
              exact ⟨rfl, provided, hProvided, hHash⟩

theorem verifiedFields_error
    {failure : Failure}
    (h : verifiedFields env botToken initData =
      .error failure) :
    failure.isInitData = true := by
  unfold verifiedFields at h
  split at h
  · cases h
    rfl
  · cases hParse : parseUniqueFields initData with
    | error failure' =>
        rw [hParse] at h
        cases h
        exact parseUniqueFields_error hParse
    | ok parsed =>
        rw [hParse] at h
        simp only [bind, Except.bind] at h
        split at h
        · cases h
          rfl
        · split at h
          · cases h
            rfl
          · split at h
            · cases h
              rfl
            · cases h

theorem freshAuthDate_ok
    {timestamp : Int}
    (h : freshAuthDate env maxAge now fields = .ok timestamp) :
    ∃ raw, fields.get authDateName = some raw ∧
      env.unicode.readInt raw = some timestamp ∧
      1000000 * timestamp - now ≤
        1000000 * maxFutureSkewSeconds ∧
      now - 1000000 * timestamp ≤ 1000000 * maxAge := by
  unfold freshAuthDate at h
  split at h
  · cases h
  · rename_i raw hRaw
    split at h
    · cases h
    · rename_i read hRead
      simp only at h
      split at h
      · cases h
      · split at h
        · cases h
        · rename_i hFuture
          split at h
          · cases h
          · rename_i hExpired
            cases h
            refine ⟨raw, hRaw, hRead, ?_, ?_⟩
            · omega
            · omega

theorem freshAuthDate_error
    {failure : Failure}
    (h : freshAuthDate env maxAge now fields =
      .error failure) :
    failure.isInitData = true := by
  unfold freshAuthDate at h
  split at h
  · cases h
    rfl
  · split at h
    · cases h
      rfl
    · simp only at h
      split at h
      · cases h
        rfl
      · split at h
        · cases h
          rfl
        · split at h
          · cases h
            rfl
          · cases h

theorem telegramUser_ok
    {user : TelegramWebAppUser}
    (h : telegramUser env fields = .ok user) :
    ∃ raw payload, fields.get userName = some raw ∧
      JsonReader.loads env.limits raw = .ok payload ∧
      env.modelValidate payload = some user := by
  unfold telegramUser at h
  split at h
  · cases h
  · rename_i raw hRaw
    cases hLoads : JsonReader.loads env.limits raw with
    | error failure =>
        rw [hLoads] at h
        cases h
    | ok payload =>
        rw [hLoads] at h
        simp only [Except.mapError, bind, Except.bind] at h
        split at h
        · cases h
        · rename_i found hValid
          split at h
          · cases h
          · cases h
            exact ⟨raw, payload, hRaw, hLoads, hValid⟩

/- Another error is one of the JSON reader. -/
theorem telegramUser_error
    {failure : Failure}
    (h : telegramUser env fields = .error failure) :
    failure.isInitData = true ∨
      ∃ raw found, fields.get userName = some raw ∧
        JsonReader.loads env.limits raw = .error found ∧
        JsonReader.isOverrun found = true := by
  unfold telegramUser at h
  split at h
  · cases h
    exact Or.inl rfl
  · rename_i raw hRaw
    cases hLoads : JsonReader.loads env.limits raw with
    | error found =>
        rw [hLoads] at h
        cases h
        cases found with
        | malformed => exact Or.inl rfl
        | digits => exact Or.inr ⟨raw, .digits, hRaw, hLoads, rfl⟩
        | depth => exact Or.inr ⟨raw, .depth, hRaw, hLoads, rfl⟩
    | ok payload =>
        rw [hLoads] at h
        simp only [Except.mapError, bind, Except.bind] at h
        split at h
        · cases h
          exact Or.inl rfl
        · split at h
          · cases h
            exact Or.inl rfl
          · cases h

theorem telegramUser_overruns
    {raw : Text}
    {found : JsonReader.Failure}
    (hRaw : fields.get userName = some raw)
    (hLoads : JsonReader.loads env.limits raw = .error found)
    (hKind : JsonReader.isOverrun found = true) :
    ∃ failure, telegramUser env fields = .error failure ∧
      failure.isInitData = false := by
  refine ⟨userFailure found, ?_, ?_⟩
  · unfold telegramUser
    rw [hRaw]
    simp only
    rw [hLoads]
    rfl
  · cases found with
    | malformed => cases hKind
    | digits => rfl
    | depth => rfl

end Checking

------------------------------------------------------------
-- Safe Logins
------------------------------------------------------------

section Logins

variable (env : Env)
variable (botToken : Text)
variable (maxAge now : Int)

/-
  The login data is signed and fresh, but the user in it has
  an integer with too many digits or nests too deep.
-/
def UserOverruns (initData : Text) : Prop :=
  ∃ fields timestamp raw,
    verifiedFields env botToken initData = .ok fields ∧
    freshAuthDate env maxAge now fields = .ok timestamp ∧
    fields.get userName = some raw ∧
    JsonReader.overruns env.limits 0
      (JsonReader.lex (firstLine raw)) = true

/-
  The user and the date of login data that is accepted were
  signed together, and all other data is refused with the
  error for it.
-/
structure LoginSafe
    (signed : List SignedFields)
    (initData : Text) : Prop where
  authentic : ∀ result, validateTelegramInitData env botToken
      maxAge now initData = .ok result →
    ∃ F ∈ signed, ∃ u a object, (userName, u) ∈ F.fields ∧
      JsonReader.loads env.limits u = .ok (.obj object) ∧
      env.modelValidate (.obj object) = some result.user ∧
      (authDateName, a) ∈ F.fields ∧
      env.unicode.readInt a = some result.authDate ∧
      1000000 * result.authDate - now ≤ 1000000 * 30 ∧
      now - 1000000 * result.authDate ≤ 1000000 * maxAge
  ownError : ∀ failure, validateTelegramInitData env botToken
      maxAge now initData = .error failure →
    failure.isInitData = true

variable {env}
variable {botToken}
variable {signed : List SignedFields}
variable {initData : Text}

theorem signed_of_verified
    (hUnforged : LoginUnforged env botToken signed initData)
    {fields : Fields}
    (h : verifiedFields env botToken initData = .ok fields) :
    ∃ F ∈ signed,
      dataCheckString F.fields = dataCheckString fields := by
  rcases verifiedFields_ok h with ⟨hParse, provided, hGet, hHash⟩
  have hSigned := hUnforged fields provided hParse hGet hHash
  rcases List.mem_map.mp hSigned with ⟨F, hF, hMessage⟩
  exact ⟨F, hF, Utf8.encode_injective hMessage⟩

theorem login_authentic
    (hUnforged : LoginUnforged env botToken signed initData)
    {result : ValidatedTelegramInitData}
    (h : validateTelegramInitData env botToken maxAge now
      initData = .ok result) :
    ∃ F ∈ signed, ∃ u a object, (userName, u) ∈ F.fields ∧
      JsonReader.loads env.limits u = .ok (.obj object) ∧
      env.modelValidate (.obj object) = some result.user ∧
      (authDateName, a) ∈ F.fields ∧
      env.unicode.readInt a = some result.authDate ∧
      1000000 * result.authDate - now ≤ 1000000 * 30 ∧
      now - 1000000 * result.authDate ≤ 1000000 * maxAge := by
  unfold validateTelegramInitData at h
  rcases Except.bind_eq_ok_iff.mp h with ⟨fields, hFields, h⟩
  rcases Except.bind_eq_ok_iff.mp h with ⟨date, hDate, h⟩
  rcases Except.bind_eq_ok_iff.mp h with ⟨user, hUser, h⟩
  cases h
  rcases signed_of_verified hUnforged hFields with
    ⟨F, hF, hText⟩
  rcases freshAuthDate_ok hDate with
    ⟨rawDate, hRawDate, hRead, hFuture, hAge⟩
  rcases telegramUser_ok hUser with
    ⟨rawUser, payload, hRawUser, hLoads, hValid⟩
  have hSignedDate := authDate_of_signed hText
    (mem_of_get hRawDate) hRead
  rcases user_of_signed hText (mem_of_get hRawUser)
      env.limits with
    ⟨_, hBad | ⟨hSignedUser, object, hObject⟩⟩ |
    ⟨_, failure, hFailure, _⟩
  · rw [hLoads] at hBad
    cases hBad
  · rw [hLoads] at hObject
    cases hObject
    exact ⟨F, hF, rawUser, rawDate, object, hSignedUser, hLoads,
      hValid, hSignedDate, hRead, hFuture, hAge⟩
  · rw [hLoads] at hFailure
    cases hFailure

theorem ownError_iff
    (hUnforged : LoginUnforged env botToken signed initData) :
    (∀ failure, validateTelegramInitData env botToken maxAge now
        initData = .error failure →
      failure.isInitData = true) ↔
    ¬ UserOverruns env botToken maxAge now initData := by
  constructor
  · rintro hOwn ⟨fields, date, raw, hFields, hDate, hRaw, hOver⟩
    rcases signed_of_verified hUnforged hFields with
      ⟨F, hF, hText⟩
    rcases user_of_signed hText (mem_of_get hRaw)
        env.limits with
      ⟨hFits, _⟩ | ⟨_, found, hLoads, hKind⟩
    · rw [hFits] at hOver
      cases hOver
    · rcases telegramUser_overruns hRaw hLoads hKind with
        ⟨failure, hFailure, hOther⟩
      have hResult : validateTelegramInitData env botToken
          maxAge now initData = .error failure := by
        unfold validateTelegramInitData
        rw [hFields]
        simp only [bind, Except.bind]
        rw [hDate]
        simp only
        rw [hFailure]
      have hBoth := hOwn failure hResult
      rw [hOther] at hBoth
      cases hBoth
  · intro hFits failure hResult
    unfold validateTelegramInitData at hResult
    cases hFields : verifiedFields env botToken initData with
    | error found =>
        rw [hFields] at hResult
        cases hResult
        exact verifiedFields_error hFields
    | ok fields =>
        rw [hFields] at hResult
        simp only [bind, Except.bind] at hResult
        cases hDate : freshAuthDate env maxAge now fields with
        | error found =>
            rw [hDate] at hResult
            cases hResult
            exact freshAuthDate_error hDate
        | ok date =>
            rw [hDate] at hResult
            simp only at hResult
            cases hUser : telegramUser env fields with
            | ok user =>
                rw [hUser] at hResult
                cases hResult
            | error found =>
                rw [hUser] at hResult
                cases hResult
                rcases telegramUser_error hUser with
                  hOwn | ⟨raw, cause, hRaw, hLoads, hKind⟩
                · exact hOwn
                · exfalso
                  rcases signed_of_verified hUnforged hFields
                    with ⟨F, hF, hText⟩
                  rcases user_of_signed hText (mem_of_get hRaw)
                      env.limits with
                    ⟨_, hBad | ⟨_, object, hObject⟩⟩ |
                    ⟨hOver, _⟩
                  · rw [hLoads] at hBad
                    cases hBad
                    cases hKind
                  · rw [hLoads] at hObject
                    cases hObject
                  · exact hFits ⟨fields, date, raw, hFields,
                      hDate, hRaw, hOver⟩

end Logins

------------------------------------------------------------
-- Logins That Are Written Plainly
------------------------------------------------------------

def loginDate : Text := intText 1700000000

def loginFields (user hash : Text) : Fields :=
  [(authDateName, loginDate), (userName, user),
    (hashName, hash)]

def loginText (user hash : Text) : Text :=
  Words.join '&' ((loginFields user hash).map line)

section Plain

variable {user hash : Text}
variable (hUser : ∀ c ∈ user, QueryString.isSafe c = true)
variable (hHash : ∀ c ∈ hash, QueryString.isSafe c = true)
variable (hShort : user.length + hash.length ≤ 16000)
include hUser hHash hShort

theorem parse_loginText :
    parseUniqueFields (loginText user hash) =
      .ok (loginFields user hash) := by
  have hSafe : ∀ v : Text, v.all QueryString.isSafe = true →
      ∀ c ∈ v, QueryString.isSafe c = true :=
    fun _ hAll => List.all_eq_true.mp hAll
  have hPairs : QueryString.parseQsl maxInitDataFields
      (loginText user hash) = some (loginFields user hash) := by
    apply QueryString.parseQsl_safe (List.cons_ne_nil _ _)
    · exact Nat.le_of_ble_eq_true rfl
    · have hDate : QueryString.SafeField
          (authDateName, loginDate) :=
        ⟨hSafe authDateName rfl, by decide, hSafe loginDate rfl⟩
      refine List.forall_mem_cons.mpr ⟨hDate,
        List.forall_mem_cons.mpr ⟨⟨?_, ?_, hUser⟩,
          List.forall_mem_singleton.mpr ⟨?_, ?_, hHash⟩⟩⟩
      · exact hSafe userName rfl
      · exact (by decide : '=' ∉ userName)
      · exact hSafe hashName rfl
      · exact (by decide : '=' ∉ hashName)
  have hLength : (loginText user hash).length =
      user.length + hash.length + 32 := by
    have hDate : loginDate.length = 10 := by decide
    have hNames : authDateName.length = 9 ∧
        userName.length = 4 ∧ hashName.length = 4 := by decide
    simp only [loginText, loginFields, List.map_cons,
      List.map_nil, Words.join, line, List.length_append,
      List.length_cons, hDate, hNames.1, hNames.2.1,
      hNames.2.2]
    omega
  have hSome : loginText user hash ≠ [] := by
    intro hNil
    rw [hNil] at hLength
    cases hLength
  unfold parseUniqueFields
  rw [if_neg, hPairs]
  · rfl
  · rw [not_or, hLength]
    exact ⟨hSome, by unfold maxInitDataLength; omega⟩

/- What was signed is presented with any hash. -/
theorem loginText_unforged
    {env : Env}
    {botToken : Text}
    {F : SignedFields}
    (hFields : F.fields =
      [(authDateName, loginDate), (userName, user)]) :
    LoginUnforged env botToken [F] (loginText user hash) := by
  intro fields provided hParse hGet hTag
  rw [parse_loginText hUser hHash hShort] at hParse
  cases hParse
  apply List.mem_singleton.mpr
  unfold SignedFields.message
  rw [hFields]
  rfl

end Plain

def sampleToken : Text := "123456:ABC".toList

/- The HMAC of the token under `WebAppData`. -/
def sampleSecret : List UInt8 :=
  [37, 86, 87, 97, 8, 65, 106, 128, 8, 226, 254,
   236, 26, 120, 201, 121, 165, 174, 108, 173, 111, 29,
   156, 106, 121, 232, 209, 103, 129, 247, 127, 17]

/- With the digest of the one message that is signed. -/
def sampleEnv (mac : List UInt8) : Env where
  unicode := .ascii
  hmac key _ :=
    if key = Utf8.encode "WebAppData".toList then sampleSecret
    else mac
  limits := ⟨4300, 995⟩
  modelValidate
  | .obj [(_, .int id), (_, .str _)] =>
      if 0 < id then
        some ⟨id, "A".toList, none, none, none, false⟩
      else none
  | _ => none

theorem verified_loginText
    {user : Text}
    {mac : List UInt8}
    (hUser : ∀ c ∈ user, QueryString.isSafe c = true)
    (hHash : ∀ c ∈ Hex.digest mac,
      QueryString.isSafe c = true)
    (hShort : user.length + (Hex.digest mac).length ≤ 16000)
    (hDigest : isHash (Hex.digest mac) = true)
    (hLower : (Hex.digest mac).map Char.toLower =
      Hex.digest mac) :
    verifiedFields (sampleEnv mac) sampleToken
        (loginText user (Hex.digest mac)) =
      .ok (loginFields user (Hex.digest mac)) := by
  have hGet : (loginFields user (Hex.digest mac)).get hashName =
      some (Hex.digest mac) := rfl
  have hSecret : secretKey (sampleEnv mac) sampleToken =
      sampleSecret := rfl
  have hMac : ∀ message,
      (sampleEnv mac).hmac sampleSecret message = mac := by
    have hOther : ¬ sampleSecret =
        Utf8.encode "WebAppData".toList := by
      decide
    intro message
    have hElse : (if sampleSecret =
        Utf8.encode "WebAppData".toList then sampleSecret
        else mac) = mac := if_neg hOther
    exact hElse
  unfold verifiedFields
  rw [if_neg (by decide),
    parse_loginText hUser hHash hShort]
  simp only [bind, Except.bind, hGet]
  rw [if_neg (by rw [hDigest]; decide), if_neg]
  rw [ne_eq, not_not, hLower]
  unfold expectedHash
  rw [hSecret, hMac]

------------------------------------------------------------
-- Logins With Long Numbers
------------------------------------------------------------

def ones (n : Nat) : Text := '1' :: List.replicate n '1'

/- A user whose identifier has as many digits as it is told. -/
def userOfOnes (n : Nat) : Text :=
  "\x7b\"id\":".toList ++ (ones n ++ ['\x7d'])

theorem lex_userOfOnes (n : Nat) :
    JsonReader.lex (userOfOnes n) =
      [.openObj, .str [105, 100], .colon,
        .int false (ones n), .closeObj] := by
  have hDigits : ∀ c ∈ List.replicate n '1',
      c.isDigit = true := by
    intro c hc
    rw [List.eq_of_mem_replicate hc]
    rfl
  have hNumber : JsonReader.scanNumber
      ('1' :: (List.replicate n '1' ++ ['\x7d'])) =
      some (.int false (ones n), ['\x7d']) :=
    JsonReader.scanNumber_digits
      rfl (by decide) hDigits rfl (by decide) rfl
  have hToken : JsonReader.scanToken
      (ones n ++ ['\x7d']) =
      some (.int false (ones n), ['\x7d']) := by
    have hLiteral : JsonReader.scanLiteral
        (ones n ++ ['\x7d']) = none := rfl
    have hPlain : JsonReader.scanToken (ones n ++ ['\x7d']) =
        (JsonReader.scanLiteral (ones n ++ ['\x7d'])).or
          (JsonReader.scanNumber (ones n ++ ['\x7d'])) := rfl
    rw [hPlain, hLiteral]
    exact hNumber
  have hClose : JsonReader.lex ['\x7d'] = [.closeObj] := rfl
  have hRest : JsonReader.lex (ones n ++ ['\x7d']) =
      [.int false (ones n), .closeObj] := by
    rw [JsonReader.lex_eq]
    have hDrop : (ones n ++ ['\x7d']).dropWhile
        JsonReader.isBlank = ones n ++ ['\x7d'] := rfl
    rw [hDrop]
    simp only [ones, List.cons_append] at hToken ⊢
    rw [hToken]
    simp only
    rw [hClose]
  have hColon : JsonReader.lex (':' :: (ones n ++ ['\x7d'])) =
      [.colon, .int false (ones n), .closeObj] := by
    rw [JsonReader.lex_eq]
    exact congrArg _ hRest
  have hKey : JsonReader.lex
      ("\"id\":".toList ++ (ones n ++ ['\x7d'])) =
      [.str [105, 100], .colon, .int false (ones n),
        .closeObj] := by
    rw [JsonReader.lex_eq]
    exact congrArg _ hColon
  rw [JsonReader.lex_eq]
  exact congrArg _ hKey

theorem loads_userOfOnes (n : Nat) :
    JsonReader.loads ⟨n + 1, 1⟩ (userOfOnes n) =
      .ok (.obj [([105, 100],
        .int (JsonReader.intOf false (ones n)))]) := by
  have hRun : JsonReader.run ⟨n + 1, 1⟩ JsonReader.start
      (JsonReader.lex (userOfOnes n)) =
      .ok ⟨[], .done (.obj [([105, 100],
        .int (JsonReader.intOf false (ones n)))])⟩ := by
    have hInt : JsonReader.startValue ⟨n + 1, 1⟩
        [.obj [] [105, 100]] (.int false (ones n)) =
        .ok (JsonReader.complete
          (.int (JsonReader.intOf false (ones n)))
          [.obj [] [105, 100]]) := by
      have hDigits : ¬ n + 1 < (ones n).length := by
        simp [ones]
      exact if_neg hDigits
    rw [lex_userOfOnes]
    change (do
      let s ← JsonReader.startValue ⟨n + 1, 1⟩
        [.obj [] [105, 100]] (.int false (ones n))
      JsonReader.run ⟨n + 1, 1⟩ s [.closeObj]) = _
    rw [hInt]
    rfl
  refine JsonReader.loads_eq_ok_iff.mpr ⟨?_, [], hRun⟩
  exact (by decide : some '\x7b' ≠ some '\uFEFF')

theorem overruns_userOfOnes
    {limits : JsonReader.Limits}
    {n : Nat}
    (h : limits.digits ≤ n) :
    JsonReader.overruns limits 0
      (JsonReader.lex (userOfOnes n)) = true := by
  have hDigits : limits.digits < (ones n).length := by
    simp only [ones, List.length_cons, List.length_replicate]
    omega
  rw [lex_userOfOnes]
  simp [JsonReader.overruns, JsonReader.overrunsAt, hDigits]

theorem length_userOfOnes (n : Nat) :
    (userOfOnes n).length = n + 8 := by
  simp [userOfOnes, ones]

theorem userOfOnes_safe (n : Nat) :
    ∀ c ∈ userOfOnes n,
      (QueryString.isSafe c && c != '\n') = true := by
  intro c hc
  rcases List.mem_append.mp hc with hc | hc
  · have hAll : "\x7b\"id\":".toList.all (fun c =>
        QueryString.isSafe c && c != '\n') = true := by
      decide
    exact List.all_eq_true.mp hAll c hc
  · rcases List.mem_append.mp hc with hc | hc
    · rcases List.mem_cons.mp hc with rfl | hc
      · rfl
      · rw [List.eq_of_mem_replicate hc]
        rfl
    · rw [List.mem_singleton.mp hc]
      rfl

/- Fields that were signed for a user. -/
def signedLogin
    (user : Text)
    (hLine : '\n' ∉ user)
    (hUser : ∃ limits object,
      JsonReader.loads limits user = .ok (.obj object)) :
    SignedFields where
  fields := [(authDateName, loginDate), (userName, user)]
  keys := (by decide : [authDateName, userName].Nodup)
  name := List.forall_mem_cons.mpr ⟨by decide,
    List.forall_mem_singleton.mpr (by decide : userName ≠ [])⟩
  oneLine := List.forall_mem_cons.mpr ⟨by decide,
    List.forall_mem_singleton.mpr
      ⟨(by decide : '=' ∉ userName),
        (by decide : '\n' ∉ userName), hLine⟩⟩
  user := by
    rcases hUser with ⟨limits, object, hLoads⟩
    exact ⟨user, limits, object, by simp, hLoads⟩
  authDate := ⟨1700000000, List.mem_cons_self⟩

def longUser : Text := userOfOnes 4300

theorem longUser_solid : '\n' ∉ longUser :=
  fun hIn => absurd (userOfOnes_safe 4300 _ hIn) (by decide)

theorem longUser_safe :
    ∀ c ∈ longUser, QueryString.isSafe c = true :=
  fun c hc =>
    (Bool.and_eq_true_iff.mp (userOfOnes_safe 4300 c hc)).1

def longLogin : SignedFields :=
  signedLogin longUser longUser_solid
    ⟨_, _, loads_userOfOnes 4300⟩

def longMac : List UInt8 :=
  [151, 41, 119, 101, 163, 78, 149, 202, 223, 166, 255,
   20, 239, 79, 243, 153, 120, 192, 115, 172, 221, 132,
   186, 204, 85, 58, 0, 33, 72, 212, 66, 202]

def longText : Text := loginText longUser (Hex.digest longMac)

------------------------------------------------------------
-- When Logins Are Safe
------------------------------------------------------------

/-
  Logins are safe exactly if no user that was signed is
  beyond the limits of the JSON reader.
-/
theorem login_safe_iff
    {env : Env}
    {botToken : Text}
    (maxAge now : Int)
    {signed : List SignedFields}
    {initData : Text}
    (hUnforged : LoginUnforged env botToken signed initData) :
    LoginSafe env botToken maxAge now signed initData ↔
      ¬ UserOverruns env botToken maxAge now initData := by
  rw [← ownError_iff maxAge now hUnforged]
  constructor
  · exact LoginSafe.ownError
  · exact fun hOwn =>
      ⟨fun _ h => login_authentic maxAge now hUnforged h, hOwn⟩

def shortUser : Text :=
  "\x7b\"id\":1,\"first_name\":\"A\"\x7d".toList

def shortLogin : SignedFields :=
  signedLogin shortUser (by decide) ⟨⟨4300, 995⟩, _, rfl⟩

def shortMac : List UInt8 :=
  [165, 250, 109, 217, 254, 58, 146, 92, 125, 122, 34,
   15, 41, 191, 222, 185, 247, 130, 59, 241, 109, 114,
   150, 242, 250, 92, 30, 142, 82, 127, 109, 215]

def shortText : Text :=
  loginText shortUser (Hex.digest shortMac)

theorem shortUser_safe :
    ∀ c ∈ shortUser, QueryString.isSafe c = true :=
  Words.forall_of_all (by decide)

theorem shortMac_safe :
    ∀ c ∈ Hex.digest shortMac, QueryString.isSafe c = true :=
  Words.forall_of_all (by decide)

/- A login that is accepted one day after it was signed. -/
theorem login_safe_iff_short :
    validateTelegramInitData (sampleEnv shortMac) sampleToken
        86400 1700086400000000 shortText =
      .ok ⟨⟨1, "A".toList, none, none, none, false⟩,
        1700000000, none⟩ ∧
    LoginSafe (sampleEnv shortMac) sampleToken 86400
      1700086400000000 [shortLogin] shortText := by
  have hVerified : verifiedFields (sampleEnv shortMac)
      sampleToken shortText =
      .ok (loginFields shortUser (Hex.digest shortMac)) :=
    verified_loginText shortUser_safe shortMac_safe
      (by decide) (by decide) (by decide)
  constructor
  · unfold validateTelegramInitData
    rw [hVerified]
    rfl
  · apply (login_safe_iff 86400 1700086400000000
      (loginText_unforged shortUser_safe shortMac_safe
        (by decide) rfl)).mpr
    rintro ⟨fields, date, raw, hFields, _, hRaw, hOver⟩
    change verifiedFields _ _ shortText = _ at hFields
    rw [hVerified] at hFields
    cases hFields
    cases hRaw
    exact absurd hOver (by decide)

/-
  A user whose identifier has 4301 digits was signed, and is
  refused with an error that is not the one for it.
-/
theorem long_user_unsafe :
    LoginUnforged (sampleEnv longMac) sampleToken [longLogin]
        longText ∧
      ¬ LoginSafe (sampleEnv longMac) sampleToken 86400
        1700000000000000 [longLogin] longText := by
  have hHash : ∀ c ∈ Hex.digest longMac,
      QueryString.isSafe c = true :=
    Words.forall_of_all (by decide)
  have hShort : longUser.length + (Hex.digest longMac).length ≤
      16000 := by
    have hDigest : (Hex.digest longMac).length = 64 := by
      decide
    have hUser : longUser.length = 4308 :=
      length_userOfOnes 4300
    omega
  have hUnforged : LoginUnforged (sampleEnv longMac)
      sampleToken [longLogin] longText :=
    loginText_unforged longUser_safe hHash hShort rfl
  refine ⟨hUnforged, fun hLogin => ?_⟩
  apply (ownError_iff 86400 1700000000000000 hUnforged).mp
    hLogin.ownError
  refine ⟨loginFields longUser (Hex.digest longMac), 1700000000,
    longUser, ?_, ?_, rfl, ?_⟩
  · exact verified_loginText longUser_safe hHash hShort
      (by decide) (by decide)
  · rfl
  · have hFirst : firstLine longUser = userOfOnes 4300 :=
      firstLine_of_solid longUser_solid
    rw [hFirst]
    exact overruns_userOfOnes (Nat.le_refl 4300)

end InitData
