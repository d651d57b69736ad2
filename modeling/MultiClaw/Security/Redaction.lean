import MultiClaw.Base.JsonDump
import MultiClaw.Planner.Validation

/-! The redaction of secrets and of paths in values and in texts. -/
namespace MultiClaw

open Base

namespace Redaction

open Regex SecretPattern

variable (host : Host)

def redacted : String := "[REDACTED]"

def redactedPath : String := "[REDACTED PATH]"

def secretKey : Regex := secretName

/-! Secrets in a text -/

def colon : Regex := char (· == ':')

def authorizationBearer : Regex :=
  seq (boundary host) (seq (word "authorization") (seq (star (space host)) (seq colon
    (seq (star (space host)) (seq (word "bearer")
      (seq (plus (space host)) (plus (notSpace host))))))))

def bearer : Regex :=
  seq (boundary host) (seq (word "bearer") (seq (plus (space host)) (plus (notSpace host))))

def nameChar : Regex := char (ignoreCase fun c => c.isAlpha || c == '_')

/-- The name of an assignment, which the replacement keeps. -/
def assignedName : Regex :=
  seq (boundary host) (seq (star nameChar) (seq secretName (star nameChar)))

def assignedValue : Regex :=
  seq (boundary host) (seq (star (space host)) (seq (char fun c => c == ':' || c == '=')
    (seq (star (space host)) (plus (notSpace host)))))

def token : Regex :=
  seq (boundary host) (seq (alt (literal (· == ·) "sk") (literal (· == ·) "ghp"))
    (seq (char (· == '_')) (seq (plus (char fun c => c.isAlphanum || c == '_' || c == '-'))
      (boundary host))))

def replaceBy (r : Regex) (replacement : String) (p : Place) : Option (List Char × Place) :=
  (matchAt r p).map fun q => (replacement.toList, q)

def replaceAssignment (p : Place) : Option (List Char × Place) :=
  (ends (assignedName host) p).findSome? fun q =>
    (matchAt (assignedValue host) q).map fun e => (textBetween p q ++ "=[REDACTED]".toList, e)

/-! Paths in a text -/

def pathChar : Regex := char fun c => !host.isSpace c && !",;\"'".toList.contains c

def absolutePath : Regex :=
  seq (notAfter fun c => c.isAlphanum || c == ':' || c == '.') (seq (char (· == '/'))
    (seq (notFollowedBy (char (· == '/'))) (plus (pathChar host))))

def relativePath : Regex :=
  seq (notAfter Char.isAlphanum) (seq (char (· == '.')) (seq (optional (char (· == '.')))
    (seq (char (· == '/')) (plus (pathChar host)))))

def drivePath : Regex :=
  seq (boundary host) (seq (char Char.isAlpha) (seq colon (seq (char (· == '\\'))
    (plus (pathChar host)))))

def sharePath : Regex :=
  seq (notAfter Char.isAlphanum) (seq (char (· == '\\')) (seq (char (· == '\\'))
    (plus (pathChar host))))

/-- What looks like a path behind a scheme is part of an address. -/
def replacePathMatch (p q : Place) : List Char :=
  if p.before.take 3 = ['/', '/', ':'] then textBetween p q
  else if p.before.take 2 = ['/', ':'] then textBetween p q
  else redactedPath.toList

def replacePath (r : Regex) (p : Place) : Option (List Char × Place) :=
  (matchAt r p).map fun q => (replacePathMatch p q, q)

def redactString (s : String) : String :=
  let s := rewrite (replaceBy (authorizationBearer host) "Authorization: [REDACTED]") s
  let s := rewrite (replaceBy (bearer host) "Bearer [REDACTED]") s
  let s := rewrite (replaceAssignment host) s
  let s := rewrite (replaceBy (token host) redacted) s
  [absolutePath host, relativePath host, drivePath host, sharePath host].foldl
    (fun s r => rewrite (replacePath r) s) s

end Redaction

mutual

/-- The strings of a value without secrets; a string that is no Unicode text stays. -/
def redact (host : Host) : Json → Json
  | .obj members => .obj (redactMembers host members)
  | .arr items => .arr (redactItems host items)
  | .str (.text s) => jsonString (Redaction.redactString host s)
  | v => v

def redactMembers (host : Host) : List (PyStr × Json) → List (PyStr × Json)
  | [] => []
  | (.text k, v) :: ms =>
    (.text k, if Redaction.secretKey.search k then jsonString Redaction.redacted
      else redact host v) :: redactMembers host ms
  | (.lone k, v) :: ms => (.lone k, redact host v) :: redactMembers host ms

def redactItems (host : Host) : List Json → List Json
  | [] => []
  | v :: vs => redact host v :: redactItems host vs

end

/-! Redaction keeps the shape of a value. -/

variable {host : Host}

theorem redactMembers_keys (ms : List (PyStr × Json)) :
    (redactMembers host ms).map Prod.fst = ms.map Prod.fst := by
  induction ms with
  | nil => rfl
  | cons m ms ih =>
    obtain ⟨_ | _, v⟩ := m <;> simp [redactMembers, ih]

mutual

theorem proper_redact : ∀ {v : Json}, v.proper = true → (redact host v).proper = true
  | .obj ms, h => by
    rw [Json.proper, Bool.and_eq_true] at h
    rw [redact, Json.proper, redactMembers_keys, h.1, proper_redactMembers h.2]
    rfl
  | .arr _, h => proper_redactItems h
  | .str (.text _), _ => rfl
  | .str (.lone _), _ => rfl
  | .null, h | .bool _, h | .int _, h | .float _, h => h

theorem proper_redactMembers : ∀ {ms : List (PyStr × Json)}, Json.properMembers ms = true →
    Json.properMembers (redactMembers host ms) = true
  | [], _ => rfl
  | (.text k, v) :: ms, h => by
    rw [Json.properMembers, Bool.and_eq_true] at h
    rw [redactMembers, Json.properMembers, proper_redactMembers h.2, Bool.and_true]
    split
    · rfl
    · exact proper_redact h.1
  | (.lone _, v) :: ms, h => by
    rw [Json.properMembers, Bool.and_eq_true] at h
    rw [redactMembers, Json.properMembers, proper_redactMembers h.2, proper_redact h.1]
    rfl

theorem proper_redactItems : ∀ {vs : List Json}, Json.properItems vs = true →
    Json.properItems (redactItems host vs) = true
  | [], _ => rfl
  | v :: vs, h => by
    rw [Json.properItems, Bool.and_eq_true] at h
    rw [redactItems, Json.properItems, proper_redactItems h.2, proper_redact h.1]
    rfl

end

mutual

theorem depth_redact_le : ∀ v : Json, (redact host v).depth ≤ v.depth
  | .obj ms => by
    rw [redact, Json.depth, Json.depth]
    exact Nat.succ_le_succ (depth_redactMembers_le ms)
  | .arr vs => by
    rw [redact, Json.depth, Json.depth]
    exact Nat.succ_le_succ (depth_redactItems_le vs)
  | .str (.text _) | .str (.lone _) | .null | .bool _ | .int _ | .float _ => le_refl 0

theorem depth_redactMembers_le : ∀ ms : List (PyStr × Json),
    Json.depthMembers (redactMembers host ms) ≤ Json.depthMembers ms
  | [] => le_refl 0
  | (.text k, v) :: ms => by
    rw [redactMembers, Json.depthMembers, Json.depthMembers]
    refine max_le_max ?_ (depth_redactMembers_le ms)
    split
    · exact Nat.zero_le _
    · exact depth_redact_le v
  | (.lone _, v) :: ms => by
    rw [redactMembers, Json.depthMembers, Json.depthMembers]
    exact max_le_max (depth_redact_le v) (depth_redactMembers_le ms)

theorem depth_redactItems_le : ∀ vs : List Json,
    Json.depthItems (redactItems host vs) ≤ Json.depthItems vs
  | [] => le_refl 0
  | v :: vs => by
    rw [redactItems, Json.depthItems, Json.depthItems]
    exact max_le_max (depth_redact_le v) (depth_redactItems_le vs)

end

section Dump

variable {escape escape' : Char → List Char}

mutual

/-- What has a text still has one, also under another way to escape characters. -/
theorem dump_redact : ∀ {v : Json} {t : List Char}, v.dump escape = some t →
    ∃ t', (redact host v).dump escape' = some t'
  | .obj ms, _, h => by
    simp only [Json.dump, Option.bind_eq_bind, Option.bind_eq_some_iff] at h
    obtain ⟨ts, hts, -⟩ := h
    obtain ⟨ts', hts'⟩ := dump_redactMembers hts
    exact ⟨_, by rw [redact, Json.dump, hts']; rfl⟩
  | .arr vs, _, h => by
    simp only [Json.dump, Option.bind_eq_bind, Option.bind_eq_some_iff] at h
    obtain ⟨ts, hts, -⟩ := h
    obtain ⟨ts', hts'⟩ := dump_redactItems hts
    exact ⟨_, by rw [redact, Json.dump, hts']; rfl⟩
  | .str (.text _), _, _ => ⟨_, rfl⟩
  | .str (.lone _), _, h => by cases h
  | .null, _, h | .bool true, _, h | .bool false, _, h | .int _, _, h | .float _, _, h => ⟨_, h⟩

theorem dump_redactMembers : ∀ {ms : List (PyStr × Json)} {ts : List (List Char × List Char)},
    Json.dumpMembers escape ms = some ts →
    ∃ ts', Json.dumpMembers escape' (redactMembers host ms) = some ts'
  | [], _, _ => ⟨[], rfl⟩
  | (.lone _, _) :: _, _, h => by cases h
  | (.text k, v) :: ms, _, h => by
    simp only [Json.dumpMembers, Option.bind_eq_bind, Option.bind_eq_some_iff] at h
    obtain ⟨t, ht, ts, hts, -⟩ := h
    obtain ⟨t', ht'⟩ := dump_redact ht
    obtain ⟨ts', hts'⟩ := dump_redactMembers hts
    rw [redactMembers]
    split
    · exact ⟨_, by rw [Json.dumpMembers, hts']; rfl⟩
    · exact ⟨_, by rw [Json.dumpMembers, ht', hts']; rfl⟩

theorem dump_redactItems : ∀ {vs : List Json} {ts : List (List Char)},
    Json.dumpItems escape vs = some ts →
    ∃ ts', Json.dumpItems escape' (redactItems host vs) = some ts'
  | [], _, _ => ⟨[], rfl⟩
  | v :: vs, _, h => by
    simp only [Json.dumpItems, Option.bind_eq_bind, Option.bind_eq_some_iff] at h
    obtain ⟨t, ht, ts, hts, -⟩ := h
    obtain ⟨t', ht'⟩ := dump_redact ht
    obtain ⟨ts', hts'⟩ := dump_redactItems hts
    exact ⟨_, by rw [redactItems, Json.dumpItems, ht', hts']; rfl⟩

end

end Dump

end MultiClaw
