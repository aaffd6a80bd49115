import MachineEmu.Firmware.Cpio
import MachineEmu.Lib.SplitLines

/-!
# Passwords of guest accounts

`set_passwords` of `patches.py`: an account is looked up in `passwd`, and its password field is
replaced there or in `shadow`. What `openssl` gives is a parameter.

* `passwordHash` — a password is hashed.
* `editLine` — the password field of a line is replaced.
* `setPassword`, `setPasswords` — one account, and several accounts one after the other.
-/

namespace MachineEmu.Firmware

open Lib Python

/-! ## Hashes -/

/-- What `str.strip` drops at both ends. -/
def blanks : List Char :=
  ['\t', '\n', '\x0b', '\x0c', '\r', '\x1c', '\x1d', '\x1e', '\x1f', ' ', '\u0085', '\u00a0',
    '\u1680', '\u2000', '\u2001', '\u2002', '\u2003', '\u2004', '\u2005', '\u2006', '\u2007',
    '\u2008', '\u2009', '\u200a', '\u2028', '\u2029', '\u202f', '\u205f', '\u3000']

/-- `str.strip`. -/
def strip (text : List Char) : List Char :=
  ((text.dropWhile (· ∈ blanks)).reverse.dropWhile (· ∈ blanks)).reverse

/-- `openssl passwd`. The output of the call with a number is given, or what is raised where there
is no binary or the call fails. A hash is one line without a colon. -/
structure Openssl where
  passwd : ℕ → List Char → List Char → Except Failure (List Char)
  oneLine : ∀ n scheme password output, passwd n scheme password = .ok output →
    ∀ c ∈ strip output, c ≠ ':' ∧ c ∉ lineBreaks

def schemes : List (List Char) := [['1'], ['5'], ['6']]

def passwordHash (O : Openssl) (n : ℕ) (password scheme : List Char) :
    Except Failure (List Char) := do
  if scheme ∉ schemes ∨ '\n' ∈ password ∨ '\x00' ∈ password ∨ '\r' ∈ password then
    throw (.firmware "unsupported password scheme or control character")
  let output ← O.passwd n scheme password
  if ¬('$' :: scheme ++ ['$']).isPrefixOf output then throw (.firmware "password hashing failed")
  return strip output

/-! ## One line -/

/-- `line.split(':', 1)[0]`. -/
def account (line : List Char) : List Char := line.takeWhile (· ≠ ':')

/-- The scheme of a password field without exclamation marks. One that is empty or locked takes the
scheme that was verified. -/
def schemeOf (old : List Char) (verifiedScheme : Option (List Char)) : List Char :=
  let scheme := if old.head? = some '$' then (old.splitOn '$').getD 1 [] else []
  if scheme = [] ∧ old ∈ [[], ['*'], ['x']] then verifiedScheme.getD [] else scheme

def editLine (O : Openssl) (n : ℕ) (password : List Char) (verifiedScheme : Option (List Char))
    (line : List Char) : Except Failure (List Char) :=
  match line.splitOn ':' with
  | first :: field :: more => do
    let scheme := schemeOf (field.dropWhile (· = '!')) verifiedScheme
    if scheme ∉ schemes then throw (.firmware "guest password hash scheme is not verified")
    let hash ← passwordHash O n password scheme
    return List.intercalate [':'] (first :: hash :: more)
  | _ => .error (.firmware "invalid password field")

/-! ## Accounts -/

/-- The rows of `passwd`. -/
def accountRows (text : List Char) : List (List (List Char)) :=
  (splitLines text).map fun line => line.1.splitOn ':'

/-- The lines of a text with their breaks. -/
def keptLines (text : List Char) : List (List Char) :=
  (splitLines text).map fun line => line.1 ++ line.2

/-- The file with the password of an account. -/
def passwordPath (rows : List (List (List Char))) (passwdPath : List Char)
    (shadowPath : Option (List Char)) (user : List Char) : Except Failure (List Char) :=
  match rows.filter fun row => row.head? = some user with
  | [row] =>
    if row.length ≠ 7 then .error (.firmware "missing or invalid guest account")
    else
      match if row.getD 1 [] = ['x'] then shadowPath else some passwdPath with
      | none => .error (.firmware "unsupported guest shadow layout")
      | some path => .ok path
  | _ => .error (.firmware "missing or invalid guest account")

/-- What is noted of a change. Its type and revision are always the same. -/
structure Patch where
  account : List Char
  path : List Char

/-- The line of an account, if it is the only one. -/
def onlyLine (lines : List (List Char)) (user : List Char) : Except Failure (List Char) :=
  match lines.filter (account · = user) with
  | [line] => .ok line
  | _ => .error (.firmware "missing or duplicate password field")

/-- The text of the latest entry with a name. -/
def textOf (entries : List Entry) (path : List Char) : Except Failure (List Char) :=
  match seen entries path with
  | none => .error (.firmware "unsupported guest shadow layout")
  | some e =>
    match Utf8.decode e.data with
    | none => .error .unicode
    | some text => .ok text

section Accounts

variable (O : Openssl) (rows : List (List (List Char))) (passwdPath : List Char)
  (shadowPath verifiedScheme : Option (List Char))

def setPassword (n : ℕ) (entries : List Entry) (user password : List Char) :
    Except Failure (List Entry × Patch) := do
  if user = [] ∨ ':' ∈ user ∨ '\n' ∈ user ∨ '\r' ∈ user ∨ '\x00' ∈ user then
    throw (.firmware "invalid password target account")
  let path ← passwordPath rows passwdPath shadowPath user
  let text ← textOf entries path
  let line ← onlyLine (keptLines text) user
  let edited ← editLine O n password verifiedScheme line
  let entries ← replaceFile entries path
    (utf8 ((keptLines text).map fun l => if account l = user then edited else l).flatten)
  return (entries, ⟨user, path⟩)

/-- The accounts from a call on. -/
def setPasswordsFrom : ℕ → List Entry → List (List Char × List Char) →
    Except Failure (List Entry × List Patch)
  | _, entries, [] => .ok (entries, [])
  | n, entries, (user, password) :: passwords => do
    let (entries, patch) ←
      setPassword O rows passwdPath shadowPath verifiedScheme n entries user password
    let (entries, patches) ← setPasswordsFrom (n + 1) entries passwords
    return (entries, patch :: patches)

end Accounts

def setPasswords (O : Openssl) (entries : List Entry) (passwords : List (List Char × List Char))
    (passwdPath : List Char) (shadowPath verifiedScheme : Option (List Char)) :
    Except Failure (List Entry × List Patch) :=
  match seen entries passwdPath with
  | none => .error (.firmware "unsupported guest passwd layout")
  | some e =>
    match Utf8.decode e.data with
    | none => .error .unicode
    | some text =>
      setPasswordsFrom O (accountRows text) passwdPath shadowPath verifiedScheme 0 entries passwords

end MachineEmu.Firmware
