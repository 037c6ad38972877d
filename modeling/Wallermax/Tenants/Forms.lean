import Wallermax.Accounts.Memberships

/-!
# The forms of the Tenants pages

What the panel accepts as a tenant's key, name and document root and as a host
name, with the messages the forms show. Lengths are byte lengths.
-/

namespace Wallermax.Tenants

open Wallermax.Accounts

/-- Unicode `White_Space`. -/
def isWhitespace (c : Char) : Bool :=
  let n := c.toNat
  (9 ≤ n && n ≤ 13) || n == 0x20 || n == 0x85 || n == 0xA0 || n == 0x1680 ||
    (0x2000 ≤ n && n ≤ 0x200A) || n == 0x2028 || n == 0x2029 || n == 0x202F ||
    n == 0x205F || n == 0x3000

/-- Unicode `Cc`. -/
def isControl (c : Char) : Bool :=
  let n := c.toNat
  n < 0x20 || (0x7F ≤ n && n < 0xA0)

/-- `str::trim`. -/
def trim (s : String) : String :=
  let front := s.toList.dropWhile isWhitespace
  String.ofList (front.reverse.dropWhile isWhitespace).reverse

/-- `"--"` and `".."` inside a name. -/
def containsPair (c : Char) : List Char → Bool
  | a :: b :: rest => (a == c && b == c) || containsPair c (b :: rest)
  | _ => false

/-- `normalize_hostname`: trimmed, without one trailing dot, in lower case. -/
def normalizeHostname (raw : String) : String :=
  let chars := (trim raw).toList
  let chars := if chars.getLast? = some '.' then chars.dropLast else chars
  String.ofList (chars.map Char.toLower)

def maxTenantName : ℕ := 200

def maxDocumentRoot : ℕ := 500

/-- `new` is the creation form's address. -/
def reservedKeys : List String := [mainOrganizationKey, cmsOrganizationKey, "new"]

def validateTenantKey (key : String) : Except String Unit :=
  let chars := key.toList
  if key.utf8ByteSize < 2 || 32 < key.utf8ByteSize then
    .error "The key must be between 2 and 32 characters."
  else if !chars.all fun c => c.isLower || c.isDigit || c == '-' then
    .error "The key may only contain lowercase letters, digits and hyphens."
  else if chars.head? = some '-' || chars.getLast? = some '-' || containsPair '-' chars then
    .error "The key cannot start or end with a hyphen, or contain two in a row."
  else if reservedKeys.contains key then
    .error ("The key `" ++ key ++ "` is reserved — the seeders own `main` and `cms`, " ++
      "and `new` is the creation form's address.")
  else .ok ()

def validateTenantName (name : String) : Except String Unit :=
  if name.isEmpty then .error "The name cannot be empty."
  else if maxTenantName < name.utf8ByteSize then
    .error "The name must be at most 200 characters."
  else .ok ()

/-- A fixed directory: no `.` or `..` component on either separator. -/
def validateDocumentRoot (document_root : String) : Except String Unit :=
  if document_root.isEmpty then .error "The document root cannot be empty."
  else if maxDocumentRoot < document_root.utf8ByteSize then
    .error "The document root must be at most 500 characters."
  else if document_root.toList.any isControl then
    .error "The document root cannot contain control characters."
  else if (document_root.toList.splitOnP fun c => c == '/' || c == '\\').any fun component =>
      component == ['.', '.'] || component == ['.'] then
    .error "The document root cannot contain `..` or `.` path components."
  else .ok ()

/-- A bare host name: no scheme, port, path, user info or whitespace. -/
def validateHostname (hostname : String) : Except String Unit :=
  let chars := hostname.toList
  if hostname.isEmpty then .error "The host name cannot be empty."
  else if 253 < hostname.utf8ByteSize then .error "The host name is too long."
  else match chars.find? fun c => [':', '/', '\\', '@', '#', '?', ' ', '\t'].contains c with
  | some bad =>
      .error ("invalid host name `" ++ hostname ++ "` (character `" ++ bad.toString ++
        "`): expected a bare host name such as `acme.example.com` — no scheme, port, " ++
        "path or whitespace")
  | none =>
      if chars.head? = some '.' || chars.getLast? = some '.' || containsPair '.' chars then
        .error ("invalid host name `" ++ hostname ++ "`: expected a bare host name such " ++
          "as `acme.example.com` (no leading/trailing dot, no empty labels)")
      else .ok ()

/-- The panel never creates one of the seeders' organizations. -/
theorem validateTenantKey_ok {key : String} (h : validateTenantKey key = .ok ()) :
    key ≠ mainOrganizationKey ∧ key ≠ cmsOrganizationKey := by
  unfold validateTenantKey at h
  simp only at h
  split at h
  · cases h
  · split at h
    · cases h
    · split at h
      · cases h
      · split at h
        · cases h
        · rename_i hfree
          simp only [reservedKeys, List.contains_cons, Bool.or_eq_true, beq_iff_eq,
            not_or] at hfree
          exact ⟨hfree.1, hfree.2.1⟩

end Wallermax.Tenants
