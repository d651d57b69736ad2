import MultiClaw.Base.Replace
import MultiClaw.Storage.Schema

/-! The arguments of a skill, put into its text. -/
namespace MultiClaw

open Base

structure Skill where
  body : List Char
  inputs : List (List Char)
  deriving DecidableEq, Repr

/-- `text.split(None, limit)`. -/
def splitSpaces (isSpace : Char → Bool) : (limit : Nat) → List Char → List (List Char)
  | limit, text =>
    match text.dropWhile isSpace, limit with
    | [], _ => []
    | rest, 0 => [rest]
    | rest, limit + 1 =>
      rest.takeWhile (!isSpace ·) :: splitSpaces isSpace limit (rest.dropWhile (!isSpace ·))

/-- A placeholder's name, and the value that takes its place. -/
abbrev Substitution := List Char × List Char

def argumentsName : List Char := "ARGUMENTS".toList

/-- The substitutions in the order in which they are made. -/
def argumentSubstitutions (host : Host) (skill : Skill) (args : List Char)
    (namedArgs : List Substitution) : List Substitution :=
  (argumentsName, args) :: (namedArgs ++
    if skill.inputs ≠ [] ∧ args ≠ [] ∧ namedArgs = [] then
      skill.inputs.zip (splitSpaces host.isSpace (skill.inputs.length - 1) args)
    else [])

def substitute (content : List Char) (s : Substitution) : List Char :=
  replaceAll ('$' :: s.1) s.2 content

def substituteArgs (host : Host) (skill : Skill) (args : List Char)
    (namedArgs : List Substitution) : List Char :=
  (argumentSubstitutions host skill args namedArgs).foldl substitute skill.body

/-! Simultaneous substitution -/

/-- The placeholder at a text that follows a dollar: the longest one. -/
def placeholderAt (subs : List Substitution) (text : List Char) : Option Substitution :=
  (subs.filter (·.1 <+: text)).argmax (·.1.length)

/-- Every placeholder of the template is replaced once, and nothing else is looked at. -/
def simultaneousFrom (subs : List Substitution) : Nat → List Char → List Char
  | _, [] => []
  | skip + 1, _ :: cs => simultaneousFrom subs skip cs
  | 0, c :: cs =>
    if c = '$' then
      match placeholderAt subs cs with
      | some s => s.2 ++ simultaneousFrom subs s.1.length cs
      | none => c :: simultaneousFrom subs 0 cs
    else c :: simultaneousFrom subs 0 cs

def simultaneous (subs : List Substitution) (template : List Char) : List Char :=
  simultaneousFrom subs 0 template

/-! When the two agree -/

/-- A dollar that another follows begins a placeholder, or the text up to the other dollar does
not begin the name of one. -/
def ClearAt (subs : List Substitution) : List Char → Prop
  | '$' :: cs => '$' ∈ cs → (∃ s ∈ subs, s.1 <+: cs.takeWhile (· ≠ '$')) ∨
      ∀ s ∈ subs, ¬ cs.takeWhile (· ≠ '$') <+: s.1
  | _ => True

instance (subs : List Substitution) : DecidablePred (ClearAt subs) := fun cs => by
  unfold ClearAt
  split <;> infer_instance

/-- No text of an argument can be taken for a placeholder or a part of one. -/
structure Separate (subs : List Substitution) (template : List Char) : Prop where
  noDollar : ∀ s ∈ subs, '$' ∉ s.1 ∧ '$' ∉ s.2
  names : ∀ s ∈ subs, ∀ s' ∈ subs, s.1 <+: s'.1 → s.1 = s'.1
  clear : ∀ rest ∈ template.tails, ClearAt subs rest

/-! Templates in pieces -/

/-- A text without dollars, or a dollar with the text up to the next one. -/
inductive Piece where
  | text (cs : List Char)
  | dollar (cs : List Char)

namespace Piece

def body : Piece → List Char
  | text cs => cs
  | dollar cs => cs

def render : Piece → List Char
  | text cs => cs
  | dollar cs => '$' :: cs

/-- A dollar that begins the placeholder is replaced with it. -/
def replace (p : Piece) (s : Substitution) : Piece :=
  match p with
  | text cs => text cs
  | dollar cs => if s.1 <+: cs then text (s.2 ++ cs.drop s.1.length) else dollar cs

end Piece

def renderAll (ps : List Piece) : List Char := ps.flatMap Piece.render

section Pieces

variable {subs done : List Substitution} {s : Substitution} {p : Piece} {ps : List Piece}
  {cs rest template : List Char}

/-- What `ClearAt` gives for a piece that others follow. -/
def Guarded (subs : List Substitution) : List Piece → Prop
  | [] => True
  | p :: ps => (ps ≠ [] → ∀ cs, p = .dollar cs →
      (∃ s ∈ subs, s.1 <+: cs) ∨ ∀ s ∈ subs, ¬ cs <+: s.1) ∧ Guarded subs ps

theorem Guarded.map_replace (h : Guarded subs ps) : Guarded subs (ps.map (·.replace s)) := by
  induction ps with
  | nil => trivial
  | cons p ps ih =>
    refine ⟨fun hne cs hcs => ?_, ih h.2⟩
    have hp : p = .dollar cs := by
      cases p with
      | text cs' => cases hcs
      | dollar cs' =>
        simp only [Piece.replace] at hcs
        split at hcs
        · cases hcs
        · exact hcs
    exact h.1 (fun hnil => hne (by rw [hnil]; rfl)) cs hp

theorem body_replace (hs : '$' ∉ s.2) (hp : '$' ∉ p.body) : '$' ∉ (p.replace s).body := by
  cases p with
  | text cs => exact hp
  | dollar cs =>
    rw [Piece.replace]
    split
    · rw [Piece.body, List.mem_append, not_or]
      exact ⟨hs, fun hmem => hp (List.mem_of_mem_drop hmem)⟩
    · exact hp

/-- Whatever follows a guarded piece, it does not make a placeholder out of it. -/
theorem prefix_append_iff
    (hnames : ∀ s ∈ subs, ∀ s' ∈ subs, s.1 <+: s'.1 → s.1 = s'.1) (hs : s ∈ subs)
    (hguard : rest ≠ [] → (∃ s ∈ subs, s.1 <+: cs) ∨ ∀ s ∈ subs, ¬ cs <+: s.1) :
    s.1 <+: cs ++ rest ↔ s.1 <+: cs := by
  refine ⟨fun h => ?_, fun h => h.trans (List.prefix_append cs rest)⟩
  by_cases hrest : rest = []
  · rwa [hrest, List.append_nil] at h
  rcases List.prefix_or_prefix_of_prefix h (List.prefix_append cs rest) with hle | hge
  · exact hle
  · rcases hguard hrest with ⟨s', hs', hs'cs⟩ | hnone
    · rw [← hnames s' hs' s hs (hs'cs.trans hge)]
      exact hs'cs
    · exact absurd hge (hnone s hs)

theorem renderAll_cons : renderAll (p :: ps) = p.render ++ renderAll ps := List.flatMap_cons

theorem ne_nil_of_renderAll_ne_nil (h : renderAll ps ≠ []) : ps ≠ [] := by
  rintro rfl
  exact h rfl

/-- One replacement acts on each piece for itself. -/
theorem substitute_renderAll
    (hnames : ∀ s ∈ subs, ∀ s' ∈ subs, s.1 <+: s'.1 → s.1 = s'.1) (hs : s ∈ subs)
    (hguard : Guarded subs ps) (hbody : ∀ p ∈ ps, '$' ∉ p.body) :
    substitute (renderAll ps) s = renderAll (ps.map (·.replace s)) := by
  induction ps with
  | nil => rfl
  | cons p ps ih =>
    obtain ⟨hp, hps⟩ := List.forall_mem_cons.mp hbody
    have hrest := ih hguard.2 hps
    rw [substitute] at hrest
    rw [List.map_cons, renderAll_cons, renderAll_cons, substitute]
    cases p with
    | text cs =>
      rw [Piece.body] at hp
      rw [Piece.render, replaceAll_append_of_notMem hp, hrest]
      rfl
    | dollar cs =>
      rw [Piece.body] at hp
      have hiff := prefix_append_iff hnames hs fun hne =>
        hguard.1 (ne_nil_of_renderAll_ne_nil hne) cs rfl
      rw [Piece.render, Piece.replace]
      split
      · rename_i hstarts
        obtain ⟨tail, rfl⟩ := hstarts
        have htail : '$' ∉ tail := fun hmem => hp (List.mem_append_right s.1 hmem)
        rw [show '$' :: (s.1 ++ tail) ++ renderAll ps = ('$' :: s.1) ++ (tail ++ renderAll ps) by
          simp, replaceAll_append (List.cons_ne_nil _ _), replaceAll_append_of_notMem htail, hrest,
          List.drop_left, Piece.render, List.append_assoc]
      · rename_i hnot
        have hnot' : ¬ '$' :: s.1 <+: '$' :: (cs ++ renderAll ps) :=
          fun h => hnot (hiff.mp (List.cons_prefix_cons.mp h).2)
        rw [List.cons_append, replaceAll_cons_of_not_starts hnot', replaceAll_append_of_notMem hp,
          hrest, Piece.render, List.cons_append]

theorem foldl_substitute_renderAll (h : Separate subs template) (hdone : done ⊆ subs)
    (hguard : Guarded subs ps) (hbody : ∀ p ∈ ps, '$' ∉ p.body) :
    done.foldl substitute (renderAll ps) = renderAll (ps.map (done.foldl Piece.replace)) := by
  induction done generalizing ps with
  | nil => simp
  | cons s done ih =>
    obtain ⟨hs, hdone⟩ := List.cons_subset.mp hdone
    have hbody' : ∀ p ∈ ps.map (·.replace s), '$' ∉ p.body := by
      intro p hmem
      obtain ⟨p, hp, rfl⟩ := List.mem_map.mp hmem
      exact body_replace (h.noDollar s hs).2 (hbody p hp)
    rw [List.foldl_cons, substitute_renderAll h.names hs hguard hbody,
      ih hdone hguard.map_replace hbody', List.map_map]
    rfl

/-! A piece after all replacements -/

theorem foldl_replace_text : done.foldl Piece.replace (.text cs) = .text cs := by
  induction done with
  | nil => rfl
  | cons s done ih => exact ih

theorem foldl_replace_dollar : subs.foldl Piece.replace (.dollar cs) =
    match subs.find? (·.1 <+: cs) with
    | some s => .text (s.2 ++ cs.drop s.1.length)
    | none => .dollar cs := by
  induction subs with
  | nil => rfl
  | cons s subs ih =>
    rw [List.foldl_cons, List.find?_cons, Piece.replace]
    by_cases hstarts : s.1 <+: cs
    · simp only [hstarts, if_true, decide_true]
      exact foldl_replace_text
    · simp only [hstarts, if_false, decide_false]
      exact ih

/-- Placeholders that can stand at one place have one name, so the longest is the first. -/
theorem placeholderAt_eq (hnames : ∀ s ∈ subs, ∀ s' ∈ subs, s.1 <+: s'.1 → s.1 = s'.1) :
    placeholderAt subs cs = subs.find? (·.1 <+: cs) := by
  rw [← List.head?_filter, placeholderAt]
  cases hfilter : subs.filter (·.1 <+: cs) with
  | nil => rfl
  | cons s others =>
    have hmem : ∀ s' ∈ s :: others, s' ∈ subs ∧ s'.1 <+: cs := by
      intro s' hs'
      rw [← hfilter] at hs'
      simpa using List.mem_filter.mp hs'
    have hs := hmem s List.mem_cons_self
    refine List.mem_argmax_iff.mpr ⟨List.mem_cons_self, fun s' hs' => ?_, fun _ _ _ => ?_⟩
    · obtain ⟨hsubs, hstarts⟩ := hmem s' hs'
      rcases List.prefix_or_prefix_of_prefix hstarts hs.2 with hle | hge
      · exact hle.length_le
      · rw [hnames s hs.1 s' hsubs hge]
    · simp

theorem simultaneousFrom_eq_drop {k : Nat} :
    simultaneousFrom subs k cs = simultaneous subs (cs.drop k) := by
  induction cs generalizing k with
  | nil => cases k <;> rfl
  | cons c cs ih =>
    cases k with
    | zero => rfl
    | succ k => exact ih

theorem simultaneous_append_of_notMem (h : '$' ∉ cs) :
    simultaneous subs (cs ++ rest) = cs ++ simultaneous subs rest := by
  induction cs with
  | nil => rfl
  | cons c cs ih =>
    rw [List.mem_cons, not_or] at h
    rw [List.cons_append, simultaneous, simultaneousFrom, if_neg (Ne.symm h.1), List.cons_append,
      ← ih h.2]
    rfl

theorem simultaneous_renderAll (h : Separate subs template) {ds : List (List Char)}
    (hguard : Guarded subs (ds.map .dollar)) (hbody : ∀ d ∈ ds, '$' ∉ d) :
    simultaneous subs (renderAll (ds.map .dollar)) =
      renderAll ((ds.map .dollar).map (subs.foldl Piece.replace)) := by
  induction ds with
  | nil => rfl
  | cons d ds ih =>
    obtain ⟨hd, hds⟩ := List.forall_mem_cons.mp hbody
    have hrest := ih hguard.2 hds
    have hplace : placeholderAt subs (d ++ renderAll (ds.map .dollar)) =
        subs.find? (·.1 <+: d) := by
      rw [placeholderAt_eq h.names]
      refine List.find?_congr fun s hs => ?_
      rw [decide_eq_decide]
      exact prefix_append_iff h.names hs fun hne =>
        hguard.1 (ne_nil_of_renderAll_ne_nil hne) d rfl
    rw [List.map_cons, List.map_cons, renderAll_cons, renderAll_cons, foldl_replace_dollar,
      Piece.render, List.cons_append, simultaneous, simultaneousFrom, if_pos rfl, hplace]
    cases hfind : subs.find? (·.1 <+: d) with
    | none =>
      simp only
      rw [simultaneousFrom_eq_drop, List.drop_zero, simultaneous_append_of_notMem hd, hrest]
      rfl
    | some s =>
      obtain ⟨tail, rfl⟩ : s.1 <+: d := by simpa using List.find?_some hfind
      have htail : '$' ∉ tail := fun hmem => hd (List.mem_append_right s.1 hmem)
      simp only
      rw [simultaneousFrom_eq_drop, List.append_assoc, List.drop_left, List.drop_left,
        simultaneous_append_of_notMem htail, hrest, Piece.render, List.append_assoc]

/-! The whole template -/

theorem exists_pieces (template : List Char) : ∃ (first : List Char) (ds : List (List Char)),
    '$' ∉ first ∧ (∀ d ∈ ds, '$' ∉ d) ∧ template = first ++ renderAll (ds.map .dollar) := by
  induction template with
  | nil => exact ⟨[], [], by simp, by simp, rfl⟩
  | cons c cs ih =>
    obtain ⟨first, ds, hfirst, hds, rfl⟩ := ih
    by_cases hc : c = '$'
    · subst hc
      exact ⟨[], first :: ds, by simp, List.forall_mem_cons.mpr ⟨hfirst, hds⟩, rfl⟩
    · exact ⟨c :: first, ds, by simp [hfirst, Ne.symm hc], hds, rfl⟩

theorem guarded_of_clear {ds : List (List Char)} (hds : ∀ d ∈ ds, '$' ∉ d)
    (h : ∀ rest ∈ (renderAll (ds.map .dollar)).tails, ClearAt subs rest) :
    Guarded subs (ds.map .dollar) := by
  induction ds with
  | nil => trivial
  | cons d ds ih =>
    obtain ⟨hd, hds⟩ := List.forall_mem_cons.mp hds
    rw [List.map_cons, renderAll_cons] at h
    refine ⟨fun hne cs hcs => ?_, ih hds fun rest hrest => h rest ?_⟩
    · cases hcs
      have hds : ds ≠ [] := fun hnil => hne (by rw [hnil]; rfl)
      obtain ⟨d', ds, rfl⟩ := List.exists_cons_of_ne_nil hds
      have hclear := h _ ((List.mem_tails _ _).mpr List.suffix_rfl)
      have htake : (d ++ '$' :: (d' ++ renderAll (ds.map .dollar))).takeWhile (· ≠ '$') = d := by
        rw [List.takeWhile_append_of_pos (by simpa using fun c hc => ne_of_mem_of_not_mem hc hd)]
        simp
      exact htake ▸ hclear (List.mem_append_right d List.mem_cons_self)
    · exact (List.mem_tails _ _).mpr
        (((List.mem_tails _ _).mp hrest).trans (List.suffix_append _ _))

/-- The replacements one after another are the simultaneous substitution. -/
theorem foldl_substitute_eq_simultaneous (h : Separate subs template) :
    subs.foldl substitute template = simultaneous subs template := by
  obtain ⟨first, ds, hfirst, hds, rfl⟩ := exists_pieces template
  have hguard : Guarded subs (ds.map .dollar) := guarded_of_clear hds fun rest hrest =>
    h.clear rest ((List.mem_tails _ _).mpr
      (((List.mem_tails _ _).mp hrest).trans (List.suffix_append _ _)))
  have hguard' : Guarded subs (.text first :: ds.map .dollar) :=
    ⟨fun _ _ hcs => (Piece.noConfusion hcs), hguard⟩
  have hbody : ∀ p ∈ Piece.text first :: ds.map .dollar, '$' ∉ p.body := by
    refine List.forall_mem_cons.mpr ⟨hfirst, fun p hp => ?_⟩
    obtain ⟨d, hd, rfl⟩ := List.mem_map.mp hp
    exact hds d hd
  have hpieces : first ++ renderAll (ds.map .dollar) =
      renderAll (.text first :: ds.map .dollar) := rfl
  rw [simultaneous_append_of_notMem hfirst, simultaneous_renderAll h hguard hds, hpieces,
    foldl_substitute_renderAll h (List.Subset.refl subs) hguard' hbody, List.map_cons,
    renderAll_cons, foldl_replace_text]
  rfl

end Pieces

def sampleSkill (body : String) (inputs : List String) : Skill where
  body := body.toList
  inputs := inputs.map String.toList

end MultiClaw
