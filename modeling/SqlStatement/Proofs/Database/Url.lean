import SqlStatement.Database.Url
import SqlStatement.Proofs.Text

/-!
# Logged URLs

A URL is logged with stars for what stands between the scheme and its last `@`. Nothing in a URL is
escaped, so this may be more than the credentials. It is never less: after a user name there is an
`@` behind the credentials, and without a user name there are no credentials.

* `starred`, `Credentials` : a URL that is logged, and what stands for credentials in a URL;
* `DatabaseConfig.redact_url` : the logged URL does not depend on the credentials.
-/

namespace SqlStatement

/-! ## Redaction -/

/-- A URL as it is logged, where `rest` stands after the credentials. -/
def starred (scheme : String) (hasUser : Bool) (rest : String) : String :=
  match Text.afterLast? '@' rest with
  | some host => scheme ++ "://***@" ++ host
  | none => if hasUser then scheme ++ "://***@" ++ rest else scheme ++ "://" ++ rest

theorem redactIn_append {scheme : List Char} (h : ':' ∉ scheme) (rest : List Char) :
    redactIn (scheme ++ ("://".toList ++ rest)) =
      match Text.afterLastIn? '@' rest with
      | some host => scheme ++ "://***@".toList ++ host
      | none => scheme ++ ("://".toList ++ rest) := by
  have hcut : Text.cutAtText? "://".toList (scheme ++ ("://".toList ++ rest)) =
      some (scheme, rest) := Text.cutAtText?_append h rest
  unfold redactIn
  rw [hcut]
  dsimp only
  cases Text.afterLastIn? '@' rest with
  | none => rfl
  | some host => rfl

/-- What stands for credentials in a URL: nothing without a user, and else a text before an `@`. -/
inductive Credentials : Bool → String → Prop
  | absent : Credentials false ""
  | present (before : String) : Credentials true (before ++ "@")

theorem redact_eq_starred {scheme : String} (h : ':' ∉ scheme.toList) {hasUser : Bool}
    {credentials : String} (hcredentials : Credentials hasUser credentials) (rest : String) :
    redact (scheme ++ "://" ++ (credentials ++ rest)) = starred scheme hasUser rest := by
  have hsplit : (scheme ++ "://" ++ (credentials ++ rest)).toList =
      scheme.toList ++ ("://".toList ++ (credentials.toList ++ rest.toList)) := by simp
  unfold redact starred Text.afterLast?
  rw [hsplit, redactIn_append h, ← String.toList_inj, String.toList_ofList]
  cases hcredentials with
  | absent =>
    rw [String.toList_empty, List.nil_append]
    cases Text.afterLastIn? '@' rest.toList with
    | none => simp
    | some host => simp
  | present before =>
    have hat : (before ++ "@").toList ++ rest.toList = before.toList ++ '@' :: rest.toList := by simp
    rw [hat, Text.afterLastIn?_append_cons]
    cases Text.afterLastIn? '@' rest.toList with
    | none => simp
    | some host => simp

/-! ## Settings -/

namespace DatabaseConfig

def location (c : DatabaseConfig) : String :=
  c.host ++ ":" ++ toString c.port.toNat ++ "/" ++ c.databaseName ++ "?charset=" ++ c.charset

/-- The URL as it is logged, or the error that there is none. Of the credentials it shows whether
there is a user name. -/
def logged (c : DatabaseConfig) (hasUser : Bool) : Except Error String :=
  let kind := Text.asciiLower c.databaseType
  if kind = "mysql" then .ok (starred "mysql" hasUser c.location)
  else if kind = "sqlite" then .ok (starred "sqlite" false c.databaseName)
  else .error (.config (.unknownDatabase kind))

def withCredentials (c : DatabaseConfig) (username password : String) : DatabaseConfig :=
  { c with username := username, password := password }

theorem credentials_spec (c : DatabaseConfig) :
    Credentials (decide (c.username ≠ "")) c.credentials := by
  unfold credentials
  by_cases huser : c.username = ""
  · rw [if_pos huser, decide_eq_false (not_not.2 huser)]
    exact .absent
  · rw [if_neg huser, decide_eq_true huser]
    split_ifs with hpassword
    · exact .present c.username
    · exact .present (c.username ++ ":" ++ c.password)

theorem map_redact_url (c : DatabaseConfig) :
    c.url.map redact = c.logged (decide (c.username ≠ "")) := by
  unfold url logged
  dsimp only
  split_ifs with hmysql hsqlite
  · have hparts : "mysql://" ++ c.credentials ++ c.host ++ ":" ++ toString c.port.toNat ++ "/" ++
        c.databaseName ++ "?charset=" ++ c.charset =
        "mysql" ++ "://" ++ (c.credentials ++ c.location) := by
      unfold location
      simp only [String.append_assoc]
      rfl
    rw [hparts]
    exact congrArg Except.ok (redact_eq_starred (by decide) c.credentials_spec c.location)
  · have hparts : "sqlite://" ++ c.databaseName = "sqlite" ++ "://" ++ ("" ++ c.databaseName) := by
      rw [String.empty_append]
      rfl
    rw [hparts]
    exact congrArg Except.ok (redact_eq_starred (by decide) .absent c.databaseName)
  · rfl

/-- Settings that differ in the password, or in user name and password with a user name in both,
have the same logged URL or the same error. Whatever `@` and `://` there are in the settings, the
logged URL is made of the scheme and the location only. -/
theorem redact_url (c : DatabaseConfig) {username username' : String}
    (h : username = username' ∨ username ≠ "" ∧ username' ≠ "") (password password' : String) :
    (c.withCredentials username password).url.map redact =
        (c.withCredentials username' password').url.map redact ∧
      (c.withCredentials username password).url.map redact = c.logged (username ≠ "") := by
  have hlogged : ∀ name word, (c.withCredentials name word).url.map redact =
      c.logged (name ≠ "") := fun name word => map_redact_url (c.withCredentials name word)
  rw [hlogged, hlogged]
  refine ⟨congrArg c.logged (decide_eq_decide.2 ?_), rfl⟩
  obtain rfl | ⟨hname, hname'⟩ := h
  · rfl
  · exact iff_of_true hname hname'

/-- Separators in the password, in the host and in the name of the database. -/
theorem redact_url_separators :
    let c : DatabaseConfig := { databaseName := "a://b", host := "h@st" }
    ("root" = "admin" ∨ "root" ≠ "" ∧ "admin" ≠ "") ∧
      (c.withCredentials "root" "p@s://s").url =
        .ok "mysql://root:p@s://s@h@st:3306/a://b?charset=utf8" ∧
      (c.withCredentials "root" "p@s://s").url.map redact =
        (c.withCredentials "admin" "").url.map redact ∧
      (c.withCredentials "root" "p@s://s").url.map redact =
        .ok "mysql://***@st:3306/a://b?charset=utf8" := by
  intro c
  obtain ⟨hsame, hlogged⟩ := redact_url c (Or.inr ⟨by decide, by decide⟩ :
    "root" = "admin" ∨ "root" ≠ "" ∧ "admin" ≠ "") "p@s://s" ""
  refine ⟨by decide, by decide +kernel, hsame, hlogged.trans ?_⟩
  decide +kernel

end DatabaseConfig

end SqlStatement
