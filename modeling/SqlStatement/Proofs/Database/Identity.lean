import SqlStatement.Proofs.Database.Url

/-!
# What a URL says of its settings

A URL joins its fields with separators, and nothing in it is escaped. So a separator in a field may
as well be the one between two fields. Read from outside, where the credentials end at the last `@`,
the password may hold anything. Each other field must not hold the text at which it ends.

* `DatabaseConfig.Confused`, `DatabaseConfig.Confused.url` : settings that share a URL because a
  field holds a separator;
* `DatabaseConfig.url_identifies` : the URL of such settings says what they are.
-/

namespace SqlStatement.DatabaseConfig

variable {c c' : DatabaseConfig}

/-! ## Parts of a URL -/

/-- The settings are those of a MySQL server. -/
def IsMysql (c : DatabaseConfig) : Prop := Text.asciiLower c.databaseType = "mysql"

instance (c : DatabaseConfig) : Decidable c.IsMysql :=
  inferInstanceAs (Decidable (Text.asciiLower c.databaseType = "mysql"))

def login (c : DatabaseConfig) : String :=
  if c.password = "" then c.username else c.username ++ ":" ++ c.password

def portMark (n : UInt16) : String := ":" ++ toString n.toNat ++ "/"

theorem credentials_eq (h : c.username ≠ "") : c.credentials = c.login ++ "@" := by
  unfold credentials login
  rw [if_neg h]
  split_ifs with hpassword
  · rfl
  · rfl

theorem url_eq (h : c.IsMysql) : c.url = .ok ("mysql://" ++ (c.credentials ++ c.location)) := by
  unfold url location
  simp only [String.append_assoc]
  exact if_pos h

theorem url_login (h : c.IsMysql) (huser : c.username ≠ "") :
    c.url = .ok ("mysql://" ++ (c.login ++ "@" ++ c.location)) := by
  rw [url_eq h, credentials_eq huser]

theorem login_withCredentials {password : String} (h : password ≠ "") (c : DatabaseConfig)
    (user : String) : (c.withCredentials user password).login = user ++ ":" ++ password :=
  if_neg h

/-! ## Settings that share a URL -/

/-- A separator in a field of the first settings is the one between two fields of the second. -/
inductive Confused : DatabaseConfig → DatabaseConfig → Prop
  | username (c : DatabaseConfig) {user password : String} (more : String) (huser : user ≠ "")
    (hpassword : password ≠ "") :
    Confused (c.withCredentials (user ++ ":" ++ more) password)
      (c.withCredentials user (more ++ ":" ++ password))
  | location {c c' : DatabaseConfig} {user password more : String} (huser : user ≠ "")
    (hpassword : password ≠ "") (htype : c'.databaseType = c.databaseType)
    (hlocation : c.location = more ++ "@" ++ c'.location) :
    Confused (c.withCredentials user password)
      (c'.withCredentials user (password ++ "@" ++ more))
  | host (c : DatabaseConfig) (host more name : String) (m n : UInt16) :
    Confused { c with host := host ++ portMark m ++ more, port := n, databaseName := name }
      { c with host := host, port := m, databaseName := more ++ portMark n ++ name }
  | databaseName (c : DatabaseConfig) (name more charset : String) :
    Confused { c with databaseName := name ++ "?charset=" ++ more, charset := charset }
      { c with databaseName := name, charset := more ++ "?charset=" ++ charset }

theorem append_ne_empty {s t : String} (h : s ≠ "" ∨ t ≠ "") : s ++ t ≠ "" := by
  rw [ne_eq, String.append_eq_empty_iff, not_and_or]
  exact h

theorem url_of_location (h : c.IsMysql) (htype : c'.databaseType = c.databaseType)
    (hcredentials : c.credentials = c'.credentials) (hlocation : c.location = c'.location) :
    c.url = c'.url := by
  have h' : c'.IsMysql := by
    unfold IsMysql
    rw [htype]
    exact h
  rw [url_eq h, url_eq h', hcredentials, hlocation]

/-- Confused settings share their URL. -/
theorem Confused.url (h : Confused c c') (hc : c.IsMysql) : c.url = c'.url := by
  cases h with
  | @username c user password more huser hpassword =>
    have hlong : user ++ ":" ++ more ≠ "" := append_ne_empty (Or.inl (append_ne_empty (Or.inl huser)))
    have hword : more ++ ":" ++ password ≠ "" := append_ne_empty (Or.inr hpassword)
    rw [url_login hc hlong, url_login (c := c.withCredentials user _) hc huser,
      login_withCredentials hpassword, login_withCredentials hword]
    simp only [String.append_assoc]
    rfl
  | @location c c' user password more huser hpassword htype hlocation =>
    have hc' : c'.IsMysql := by
      unfold IsMysql
      rw [htype]
      exact hc
    have hword : password ++ "@" ++ more ≠ "" :=
      append_ne_empty (Or.inl (append_ne_empty (Or.inl hpassword)))
    have hsplit : (c.withCredentials user password).location = more ++ "@" ++ c'.location := hlocation
    rw [url_login hc huser, url_login (c := c'.withCredentials user _) hc' huser,
      login_withCredentials hpassword, login_withCredentials hword, hsplit]
    simp only [String.append_assoc]
    rfl
  | host c host more name m n =>
    refine url_of_location hc ?_ ?_ ?_
    · rfl
    · rfl
    · simp only [DatabaseConfig.location, portMark, String.append_assoc]
  | databaseName c name more charset =>
    refine url_of_location hc ?_ ?_ ?_
    · rfl
    · rfl
    · simp only [DatabaseConfig.location, String.append_assoc]

/-! ## Settings that a URL identifies -/

/-- No field but the password holds the text at which it ends, and no `@` stands after the
credentials. -/
structure Separable (c : DatabaseConfig) : Prop where
  username : ':' ∉ c.username.toList
  location : '@' ∉ c.location.toList
  host : ∀ n, ¬(portMark n).toList <:+: c.host.toList
  databaseName : ¬"?charset=".toList <:+: c.databaseName.toList

theorem cut?_login (h : ':' ∉ c.username.toList) :
    Text.cut? ':' c.login = if c.password = "" then none else some (c.username, c.password) := by
  unfold login
  split_ifs with hpassword
  · exact Text.cut?_eq_none_iff.2 h
  · exact Text.cut?_eq_some_iff.2 ⟨rfl, h⟩

theorem login_inj (h : ':' ∉ c.username.toList) (h' : ':' ∉ c'.username.toList)
    (hlogin : c.login = c'.login) : c.username = c'.username ∧ c.password = c'.password := by
  have hcut := cut?_login h
  rw [hlogin, cut?_login h'] at hcut
  by_cases hpassword : c.password = ""
  · by_cases hpassword' : c'.password = ""
    · unfold login at hlogin
      rw [if_pos hpassword, if_pos hpassword'] at hlogin
      exact ⟨hlogin, hpassword.trans hpassword'.symm⟩
    · rw [if_pos hpassword, if_neg hpassword'] at hcut
      cases hcut
  · by_cases hpassword' : c'.password = ""
    · rw [if_neg hpassword, if_pos hpassword'] at hcut
      cases hcut
    · rw [if_neg hpassword, if_neg hpassword'] at hcut
      obtain ⟨huser, hword⟩ := Prod.mk.inj (Option.some.inj hcut)
      exact ⟨huser.symm, hword.symm⟩

theorem toList_portMark (n : UInt16) :
    (portMark n).toList = ':' :: ((toString n.toNat).toList ++ ['/']) := by
  unfold portMark
  simp

theorem notMem_digits {d : Char} (h : d.isDigit = false) (n : Nat) : d ∉ (toString n).toList := by
  intro hmem
  rw [Text.isDigit_of_mem_toString hmem] at h
  cases h

theorem toList_location (c : DatabaseConfig) : c.location.toList =
    c.host.toList ++ (':' :: ((toString c.port.toNat).toList ++ ['/']) ++
      (c.databaseName.toList ++ ('?' :: "charset=".toList ++ c.charset.toList))) := by
  unfold DatabaseConfig.location
  simp

theorem location_inj (h : c.Separable) (h' : c'.Separable) (hlocation : c.location = c'.location) :
    c.host = c'.host ∧ c.port = c'.port ∧ c.databaseName = c'.databaseName ∧
      c.charset = c'.charset := by
  have hparts := congrArg String.toList hlocation
  rw [toList_location, toList_location] at hparts
  have hcolon : ∀ n : Nat, ':' ∉ (toString n).toList ++ ['/'] := fun n => by
    simpa using notMem_digits rfl n
  -- the host ends at the first port with its marks
  obtain ⟨hhost, hrest⟩ := Text.append_sep_inj (hcolon c.port.toNat) (hcolon c'.port.toNat)
    (toList_portMark c'.port ▸ h.host c'.port) (toList_portMark c.port ▸ h'.host c.port) hparts
  -- the port ends at the first slash
  rw [List.append_assoc, List.append_assoc] at hrest
  have hslash : ∀ (n : Nat) (rest : List Char),
      Text.cutAt? '/' ((toString n).toList ++ (['/'] ++ rest)) = some ((toString n).toList, rest) :=
    fun n rest => Text.cutAt?_eq_some_iff.2 ⟨rfl, notMem_digits rfl n⟩
  have hcut := hslash c.port.toNat
    (c.databaseName.toList ++ ('?' :: "charset=".toList ++ c.charset.toList))
  rw [hrest, hslash] at hcut
  obtain ⟨hport, hnames⟩ := Prod.mk.inj (Option.some.inj hcut)
  -- the name of the database ends at the first mark of the character set
  have hmark : '?' ∉ "charset=".toList := by decide
  obtain ⟨hname, hcharset⟩ :=
    Text.append_sep_inj hmark hmark h'.databaseName h.databaseName hnames
  refine ⟨String.toList_inj.1 hhost, ?_, String.toList_inj.1 hname.symm,
    String.toList_inj.1 (List.append_cancel_left hcharset).symm⟩
  exact UInt16.toNat_inj.1 (Text.toString_injective (String.toList_inj.1 hport.symm))

/-- Settings of a MySQL server with a user name, whose user name has no colon, whose host, database
and character set have no `@`, whose host holds no port between a colon and a slash, and whose
database does not hold the mark of the character set, are the same in all that a URL shows if they
have the same URL, whatever their passwords are. -/
theorem url_identifies (hc : c.IsMysql) (hc' : c'.IsMysql) (huser : c.username ≠ "")
    (huser' : c'.username ≠ "") (h : c.Separable) (h' : c'.Separable) (hurl : c.url = c'.url) :
    c.username = c'.username ∧ c.password = c'.password ∧ c.host = c'.host ∧ c.port = c'.port ∧
      c.databaseName = c'.databaseName ∧ c.charset = c'.charset := by
  rw [url_login hc huser, url_login hc' huser'] at hurl
  have htext : c.login.toList ++ '@' :: c.location.toList =
      c'.login.toList ++ '@' :: c'.location.toList := by
    have hlists := congrArg String.toList ((String.append_right_inj _).1 (Except.ok.inj hurl))
    simpa using hlists
  have hlast := Text.afterLastIn?_append (a := c.login.toList) h.location
  rw [htext, Text.afterLastIn?_append h'.location] at hlast
  have hlocation : c'.location = c.location := String.toList_inj.1 (Option.some.inj hlast)
  rw [hlocation] at htext
  have hlogin : c.login = c'.login := String.toList_inj.1 (List.append_cancel_right htext)
  obtain ⟨hname, hpassword⟩ := login_inj h.username h'.username hlogin
  obtain ⟨hhost, hport, hdatabase, hcharset⟩ := location_inj h h' hlocation.symm
  exact ⟨hname, hpassword, hhost, hport, hdatabase, hcharset⟩

/-- A host may hold colons, and a password all that ends a field. -/
theorem url_identifies_separators :
    let c : DatabaseConfig :=
      { databaseName := "lab", host := "::1", username := "root", password := "p:s@s:1/?charset=w" }
    let c' : DatabaseConfig := { c with databaseType := "MySQL", tablePrefix := "lab_" }
    c.IsMysql ∧ c'.IsMysql ∧ c.username ≠ "" ∧ c'.username ≠ "" ∧ c.Separable ∧ c'.Separable ∧
      c.url = c'.url ∧ c.url = .ok "mysql://root:p:s@s:1/?charset=w@::1:3306/lab?charset=utf8" ∧
      c.username = c'.username ∧ c.password = c'.password ∧ c.host = c'.host ∧ c.port = c'.port ∧
      c.databaseName = c'.databaseName ∧ c.charset = c'.charset := by
  intro c c'
  have hhost : ∀ n, ¬(portMark n).toList <:+: "::1".toList := by
    intro n hinfix
    have hslash : '/' ∈ "::1".toList := hinfix.subset (by rw [toList_portMark]; simp)
    exact absurd hslash (by decide)
  have hc : c.Separable := ⟨by decide, by decide +kernel, hhost, by decide⟩
  have hc' : c'.Separable := ⟨by decide, by decide +kernel, hhost, by decide⟩
  have hurl : c.url = c'.url := by decide +kernel
  exact ⟨by decide, by decide, by decide, by decide, hc, hc', hurl, by decide +kernel,
    url_identifies (by decide) (by decide) (by decide) (by decide) hc hc' hurl⟩

/-- A colon in the user name is read as the one before the password. -/
theorem url_shared :
    let c : DatabaseConfig := { databaseName := "d", username := "a:b", password := "c" }
    let c' : DatabaseConfig := { databaseName := "d", username := "a", password := "b:c" }
    c.IsMysql ∧ c'.IsMysql ∧ c.username ≠ "" ∧ c'.username ≠ "" ∧
      c.url = .ok "mysql://a:b:c@localhost:3306/d?charset=utf8" ∧ c.url = c'.url ∧
      c.username ≠ c'.username ∧ c.password ≠ c'.password := by
  decide +kernel

end SqlStatement.DatabaseConfig
