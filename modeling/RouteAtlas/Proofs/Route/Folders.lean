import RouteAtlas.Project.Gathering
import RouteAtlas.Proofs.Route.Mounting
import RouteAtlas.Proofs.Route.Naming

/-!
# Routes named by folders

A file `route.ts` or `route.js` below `app/api` serves the path that its folders spell.
`template_routeFile` says for which folders this holds: the last one may not end like a script,
because the endings of files are taken from it as well.
-/

namespace RouteAtlas.Route

open Text

/-! ### Folders -/

/-- Letters and numerals of any script, underscores, hyphens, dots and tildes. -/
def isFolderChar (x : Char) : Bool := isWord x || x == '-' || x == '.' || x == '~'

/-- A folder of an application: a name, or a placeholder in brackets. -/
inductive Folder where
  | literal (name : Text) (nonempty : name ≠ []) (inside : ∀ x ∈ name, isFolderChar x = true)
  -- [n]
  | single (n : Identifier)
  -- [...n]
  | spread (n : Identifier)
  -- [[...n]]
  | optionalSpread (n : Identifier)

/-- The characters of folders are plain and neither backslashes nor line feeds. -/
theorem plain_of_isFolderChar {x : Char} (h : isFolderChar x = true) :
    isPlain x = true ∧ x ≠ '\\' ∧ x ≠ '\n' := by
  simp only [isFolderChar, Bool.or_eq_true, beq_iff_eq] at h
  rcases h with ((word | rfl) | rfl) | rfl
  · have plain := plain_of_name (.inl word)
    exact ⟨plain.1, plain.2.2⟩
  all_goals decide

namespace Folder

def segment : Folder → Segment
  | literal name nonempty inside =>
    .literal name nonempty fun x hx => (plain_of_isFolderChar (inside x hx)).1
  | single n => .named .bracket n
  | spread n => .named .spread n
  | optionalSpread n => .named .optionalSpread n

/-- The name of the folder. -/
def text (f : Folder) : Text := f.segment.text

/-- What the folder contributes to the template. -/
def template (f : Folder) : Text := f.segment.template

def isLiteral : Folder → Bool
  | literal _ _ _ => true
  | _ => false

variable {f : Folder}

theorem text_ne_nil : f.text ≠ [] := Segment.text_ne_nil

theorem slash_notMem_text : '/' ∉ f.text := Segment.slash_notMem_text

theorem template_ne_nil : f.template ≠ [] := Segment.template_ne_nil

theorem slash_notMem_template : '/' ∉ f.template :=
  Segment.notMem_template (by decide) (by decide) (by decide)

theorem template_of_isLiteral (h : f.isLiteral = true) : f.template = f.text := by
  cases f with
  | literal => rfl
  | _ => cases h

theorem eq_of_text {g : Folder} (hf : f.isLiteral = true) (hg : g.isLiteral = true)
    (same : f.text = g.text) : f = g := by
  cases f with
  | literal =>
    cases g with
    | literal =>
      obtain rfl := same
      rfl
    | _ => cases hg
  | _ => cases hf

theorem notMem_text {x : Char} (other : x = '\\' ∨ x = '\n') : x ∉ f.text := by
  have identifier : isIdentifier x = false := by rcases other with rfl | rfl <;> decide
  have sides : x ≠ '[' ∧ x ≠ '.' ∧ x ≠ ']' := by rcases other with rfl | rfl <;> decide
  cases f with
  | literal name _ inside =>
    intro h
    have plain := plain_of_isFolderChar (inside x h)
    exact other.elim plain.2.1 plain.2.2
  | _ n =>
    simp_all [text, segment, Segment.text, Style.opening, Style.closing, n.notMem identifier]

end Folder

/-! ### Endings -/

theorem prefix_dropSuffix (endings : List Text) {t : Text} (line : '\n' ∉ t) :
    dropSuffix endings t <+: t := by
  rw [dropSuffix_of_noLine line]
  cases found : endings.findSome? (before? · t) with
  | none => exact List.prefix_rfl
  | some body =>
    obtain ⟨ending, _, cut⟩ := List.exists_of_findSome?_eq_some found
    exact ⟨ending, (before?_eq_some_iff.mp cut).symm⟩

/-- A text is left as it is exactly if it has none of the endings. -/
theorem dropSuffix_eq_self_iff {endings : List Text} (nonempty : ∀ e ∈ endings, e ≠ []) {t : Text}
    (line : '\n' ∉ t) : dropSuffix endings t = t ↔ ∀ e ∈ endings, ¬ e <:+ t := by
  simp only [dropSuffix_of_noLine line, ← before?_eq_none_iff]
  cases found : endings.findSome? (before? · t) with
  | none => exact iff_of_true rfl (List.findSome?_eq_none_iff.mp found)
  | some body =>
    obtain ⟨ending, known, cut⟩ := List.exists_of_findSome?_eq_some found
    refine iff_of_false (fun same => ?_) fun none => by simp [none ending known] at cut
    have whole := before?_eq_some_iff.mp cut
    rw [Option.getD_some] at same
    subst same
    exact nonempty ending known (List.self_eq_append_right.mp whole)

theorem before?_slash {ending : Text} (free : '/' ∉ ending) (u v : Text) :
    before? ending (u ++ '/' :: v) = (before? ending v).map (u ++ '/' :: ·) := by
  cases found : before? ending v with
  | some body =>
    rw [before?_eq_some_iff.mp found]
    exact before?_eq_some_iff.mpr (by simp)
  | none =>
    rw [Option.map_none, before?_eq_none_iff]
    intro whole
    -- An ending longer than the last part would hold the slash in front of it.
    rcases List.suffix_or_suffix_of_suffix whole (List.suffix_append u ('/' :: v)) with short | long
    · rcases List.suffix_cons_iff.mp short with rfl | inside
      · exact free List.mem_cons_self
      · exact before?_eq_none_iff.mp found inside
    · exact free (long.subset List.mem_cons_self)

/-- Endings without slashes are taken from the last part of a path only. -/
theorem dropSuffix_slash (endings : List Text) (free : ∀ e ∈ endings, '/' ∉ e) {u v : Text}
    (line : '\n' ∉ u ++ '/' :: v) :
    dropSuffix endings (u ++ '/' :: v) = u ++ '/' :: dropSuffix endings v := by
  have line' : '\n' ∉ v := fun h => line (by simp [h])
  have found : endings.findSome? (before? · (u ++ '/' :: v)) =
      (endings.findSome? (before? · v)).map (u ++ '/' :: ·) := by
    clear line line'
    induction endings with
    | nil => rfl
    | cons ending endings ih =>
      have rest := ih fun e he => free e (List.mem_cons_of_mem ending he)
      rw [List.findSome?_cons, List.findSome?_cons, before?_slash (free ending List.mem_cons_self),
        rest]
      cases before? ending v <;> rfl
  rw [dropSuffix_of_noLine line, dropSuffix_of_noLine line', found]
  cases endings.findSome? (before? · v) <;> rfl

/-- A name without the endings of files: first that of a router, then that of a script. -/
def bare (name : Text) : Text := dropSuffix plainEndings (dropSuffix routerEndings name)

theorem bare_eq_self_iff {name : Text} (line : '\n' ∉ name) :
    bare name = name ↔ Traits.isScript name = false := by
  have cut := prefix_dropSuffix routerEndings line
  have line' : '\n' ∉ dropSuffix routerEndings name := fun h => line (cut.subset h)
  have cut' := prefix_dropSuffix plainEndings line'
  have script : Traits.isScript name = false ↔ ∀ e ∈ plainEndings, ¬ e <:+ name := by
    simp [Traits.isScript, plainEndings, ← Bool.not_eq_true, endsWith_iff]
  rw [script]
  constructor
  · intro same
    have long : name.length ≤ (dropSuffix routerEndings name).length :=
      calc name.length = (bare name).length := by rw [same]
        _ ≤ _ := cut'.length_le
    have whole : dropSuffix routerEndings name = name := cut.eq_of_length_le long
    rw [bare, whole] at same
    exact (dropSuffix_eq_self_iff (by decide) line).mp same
  · intro other
    have router : dropSuffix routerEndings name = name := by
      refine (dropSuffix_eq_self_iff (by decide) line).mpr fun e he whole => ?_
      have ends : ∀ e ∈ routerEndings, ∃ tail ∈ plainEndings, tail <:+ e := by decide
      obtain ⟨tail, known, inside⟩ := ends e he
      exact other tail known (inside.trans whole)
    rw [bare, router]
    exact (dropSuffix_eq_self_iff (by decide) line).mpr other

/-! ### From the file to its template -/

/-- The route file in the folders below the mount directory of an application. -/
def routeFile (folders : List Folder) (ending : Text) : Text :=
  "app/api" ++ slashed (folders.map Folder.text ++ ["route" ++ ending])

namespace Folder

theorem isScript_text {f : Folder} (h : f.isLiteral = false) : Traits.isScript f.text = false := by
  have closed : f.text.getLast? = some ']' := by
    cases f with
    | literal => cases h
    | _ n => simp [text, segment, Segment.text, Style.closing, List.getLast?_append]
  rw [← Bool.not_eq_true, Traits.isScript, Bool.or_eq_true, endsWith_iff, endsWith_iff]
  rintro (⟨u, whole⟩ | ⟨u, whole⟩) <;> simp [← whole, List.getLast?_append] at closed

/-- The folder under the name that is left of it, if any is. -/
def bare? : Folder → Option Folder
  | literal name _ inside =>
    if h : bare name = [] then none
    else some (literal (bare name) h fun x hx => inside x (by
      unfold bare at hx
      exact mem_of_mem_dropSuffix (mem_of_mem_dropSuffix hx)))
  | f => some f

theorem map_text_bare? (f : Folder) :
    f.bare?.toList.map text = [bare f.text].filter (· ≠ []) := by
  have whole (h : f.isLiteral = false) : bare f.text = f.text :=
    (bare_eq_self_iff (notMem_text (.inr rfl))).mpr (isScript_text h)
  cases f with
  | literal name nonempty inside =>
    have name' : (literal name nonempty inside).text = name := rfl
    by_cases h : bare name = []
    · simp [bare?, h, name']
    · simp [bare?, h, name']
      rfl
  | _ => rw [whole rfl]; simp [bare?, text_ne_nil]

end Folder

/-- The folders that are seen in the template. -/
def shown (folders : List Folder) : List Folder :=
  folders.dropLast ++ (folders.getLast?.bind Folder.bare?).toList

theorem parts_slashed {vs : List Text} (h : ∀ v ∈ vs, v ≠ [] ∧ '/' ∉ v) :
    parts (slashed vs) = vs := by
  by_cases nonempty : vs = []
  · subst nonempty
    rfl
  · rw [slashed_eq_join nonempty, parts_slash, parts_join h]

theorem parts_locationPath {file path rest : Text} (clean : Tree.plain file = path)
    (mount : mounts.findSome? (below? · path) = some rest) :
    parts (locationPath file) =
      parts (suffixes.foldl (fun path endings => dropSuffix endings path) rest) := by
  simp only [locationPath, clean, mount, Option.getD_some]
  generalize suffixes.foldl (fun path endings => dropSuffix endings path) rest = base
  split
  · rename_i none
    rw [none]
    rfl
  · unfold rooted
    split
    · rfl
    · exact parts_slash base

theorem foldl_dropSuffix_route {body ending : Text} (line : '\n' ∉ body)
    (known : ending ∈ plainEndings) :
    suffixes.foldl (fun path endings => dropSuffix endings path) (body ++ ("/route" ++ ending)) =
      bare body := by
  have quiet : ∀ e ∈ plainEndings, '\n' ∉ ("/route" ++ e : Text) := by decide
  have line' : '\n' ∉ body ++ ("/route" ++ ending) := by
    rw [List.mem_append, not_or]
    exact ⟨line, quiet ending known⟩
  have first : dropSuffix ["/route.ts", "/route.js"] (body ++ ("/route" ++ ending)) = body := by
    rw [dropSuffix_of_noLine line']
    simp only [plainEndings, List.mem_cons, List.not_mem_nil, or_false] at known
    rcases known with rfl | rfl <;> simp [before?, after?]
  simp only [suffixes, List.foldl_cons, List.foldl_nil, first]
  rfl

theorem notMem_slashed {x : Char} {vs : List Text} (slash : x ≠ '/') (free : ∀ v ∈ vs, x ∉ v) :
    x ∉ slashed vs := by
  intro h
  obtain ⟨v, hv, inside⟩ := List.mem_flatMap.mp h
  exact (List.mem_cons.mp inside).elim slash (free v hv)

theorem parts_bare (folders : List Folder) :
    parts (bare (slashed (folders.map Folder.text))) = (shown folders).map Folder.text := by
  rcases List.eq_nil_or_concat folders with rfl | ⟨front, last, rfl⟩
  · decide
  · rw [List.concat_eq_append]
    have free : '\n' ∉ slashed ((front ++ [last]).map Folder.text) := by
      refine notMem_slashed (by decide) fun v hv => ?_
      obtain ⟨f, _, rfl⟩ := List.mem_map.mp hv
      exact Folder.notMem_text (.inr rfl)
    have whole : slashed ((front ++ [last]).map Folder.text) =
        slashed (front.map Folder.text) ++ '/' :: last.text := by simp [slashed]
    rw [whole] at free ⊢
    have first := dropSuffix_slash routerEndings (by decide) free
    have free' :
        '\n' ∉ slashed (front.map Folder.text) ++ '/' :: dropSuffix routerEndings last.text :=
      first ▸ fun h => free ((prefix_dropSuffix routerEndings free).subset h)
    have second := dropSuffix_slash plainEndings (by decide) free'
    have slash : '/' ∉ bare last.text := fun h =>
      last.slash_notMem_text (mem_of_mem_dropSuffix (mem_of_mem_dropSuffix h))
    have folders : parts (slashed (front.map Folder.text)) = front.map Folder.text := by
      refine parts_slashed fun v hv => ?_
      obtain ⟨f, _, rfl⟩ := List.mem_map.mp hv
      exact ⟨Folder.text_ne_nil, Folder.slash_notMem_text⟩
    calc parts (bare (slashed (front.map Folder.text) ++ '/' :: last.text))
        = parts (slashed (front.map Folder.text) ++ '/' :: bare last.text) := by
          rw [bare, first, second, ← bare]
      _ = front.map Folder.text ++ [bare last.text].filter (· ≠ []) := by
          rw [parts_append, folders, parts, split_of_notMem slash]
      _ = (shown (front ++ [last])).map Folder.text := by
          rw [shown, List.map_append, List.dropLast_concat, List.getLast?_concat,
            Option.bind_some, Folder.map_text_bare?]

/-- The template of a route file is made of its folders, except that the endings of files are taken
from the last one. -/
theorem template_shown {d : Declaration} (file : d.anchor = .file) (folders : List Folder)
    {ending : Text} (known : ending ∈ plainEndings) :
    d.template (routeFile folders ending) =
      '/' :: join "/" ((shown folders).map Folder.template) := by
  have back : '\\' ∉ slashed (folders.map Folder.text ++ ["route" ++ ending]) := by
    have quiet : ∀ e ∈ plainEndings, '\\' ∉ ("route" ++ e : Text) := by decide
    refine notMem_slashed (by decide) fun v hv => ?_
    rcases List.mem_append.mp hv with hv | hv
    · obtain ⟨f, _, rfl⟩ := List.mem_map.mp hv
      exact Folder.notMem_text (.inl rfl)
    · obtain rfl := List.mem_singleton.mp hv
      exact quiet ending known
  have line : '\n' ∉ slashed (folders.map Folder.text) := by
    refine notMem_slashed (by decide) fun v hv => ?_
    obtain ⟨f, _, rfl⟩ := List.mem_map.mp hv
    exact Folder.notMem_text (.inr rfl)
  have mount : ("app/api" : Text) ∈ mounts := by decide
  have below := findSome?_below? mount
    (join "/" (folders.map Folder.text ++ [("route" : Text) ++ ending]))
  rw [← slashed_eq_join (by simp)] at below
  have cut : slashed (folders.map Folder.text ++ [("route" : Text) ++ ending]) =
      slashed (folders.map Folder.text) ++ ("/route" ++ ending) := by simp [slashed]
  have clean : Tree.plain (routeFile folders ending) =
      "app/api" ++ slashed (folders.map Folder.text ++ ["route" ++ ending]) := plain_mount mount back
  have whole : parts (locationPath (routeFile folders ending)) =
      ((shown folders).map Folder.segment).map Segment.text := by
    rw [parts_locationPath clean below, cut, foldl_dropSuffix_route line known,
      parts_bare, List.map_map]
    rfl
  have template : d.template (routeFile folders ending) =
      canonical (locationPath (routeFile folders ending)) := by
    simp only [Declaration.template, place, file]
  rw [template, canonical_of_parts whole, List.map_map]
  rfl

theorem templates_eq_of_join_eq {D E : List Folder}
    (same : '/' :: join "/" (D.map Folder.template) = '/' :: join "/" (E.map Folder.template)) :
    D.map Folder.template = E.map Folder.template := by
  have whole (F : List Folder) :
      parts ('/' :: join "/" (F.map Folder.template)) = F.map Folder.template := by
    rw [parts_slash]
    refine parts_join fun v hv => ?_
    obtain ⟨f, _, rfl⟩ := List.mem_map.mp hv
    exact ⟨Folder.template_ne_nil, Folder.slash_notMem_template⟩
  rw [← whole D, same, whole E]

/-- The last folder is not named like a script. -/
def EndsPlain (folders : List Folder) : Prop :=
  ∀ last ∈ folders.getLast?, Traits.isScript last.text = false

theorem shown_of_endsPlain {folders : List Folder} (plain : EndsPlain folders) :
    shown folders = folders := by
  rcases List.eq_nil_or_concat folders with rfl | ⟨front, last, rfl⟩
  · rfl
  · have whole := (bare_eq_self_iff (Folder.notMem_text (.inr rfl))).mpr (plain last (by simp))
    have kept : last.bare? = some last := by
      cases last with
      | literal name nonempty inside =>
        have whole : bare name = name := whole
        simp [Folder.bare?, whole, nonempty]
      | _ => rfl
    simp [shown, kept]

theorem endsPlain_of_shown {folders : List Folder}
    (same : (shown folders).map Folder.template = folders.map Folder.template) :
    EndsPlain folders := by
  intro last final
  obtain ⟨front, rfl⟩ := List.getLast?_eq_some_iff.mp final
  have kept : last.bare?.toList.map Folder.template = [last.template] := by
    simpa [shown] using same
  cases last with
  | literal name nonempty inside =>
    by_contra script
    have shorter : bare name ≠ name := fun whole =>
      script ((bare_eq_self_iff (Folder.notMem_text (.inr rfl))).mp whole)
    by_cases none : bare name = []
    · simp [Folder.bare?, none] at kept
    · simp only [Folder.bare?, dif_neg none, Option.toList_some, List.map_cons, List.map_nil,
        List.cons.injEq, and_true] at kept
      exact shorter kept
  | _ => exact Folder.isScript_text rfl

theorem eq_of_templates {D E : List Folder} (literals : ∀ f ∈ D ++ E, f.isLiteral = true)
    (same : D.map Folder.template = E.map Folder.template) : D = E := by
  induction D generalizing E with
  | nil => exact (List.map_eq_nil_iff.mp same.symm).symm
  | cons f D ih =>
    obtain ⟨g, E, rfl, first, rest⟩ := List.map_eq_cons_iff.mp same.symm
    have hf := literals f (by simp)
    have hg := literals g (by simp)
    rw [Folder.template_of_isLiteral hf, Folder.template_of_isLiteral hg] at first
    rw [Folder.eq_of_text hf hg first.symm, ih (E := E) (fun h hh => literals h ?_) rest.symm]
    rcases List.mem_append.mp hh with hh | hh <;> simp [hh]

/-- A route file serves the path of its folders exactly if the last of them is not named like a
script, and of such folders no two lists of names share a template. -/
theorem template_routeFile {d : Declaration} (file : d.anchor = .file) :
    (∀ folders : List Folder, ∀ ending ∈ plainEndings,
      d.template (routeFile folders ending) = '/' :: join "/" (folders.map Folder.template) ↔
        EndsPlain folders) ∧
    (∀ D E : List Folder, (∀ f ∈ D ++ E, f.isLiteral = true) → EndsPlain D → EndsPlain E →
      ∀ e ∈ plainEndings, ∀ e' ∈ plainEndings,
        d.template (routeFile D e) = d.template (routeFile E e') → D = E) := by
  constructor
  · intro folders ending known
    rw [template_shown file folders known]
    constructor
    · intro same
      exact endsPlain_of_shown (templates_eq_of_join_eq same)
    · intro plain
      rw [shown_of_endsPlain plain]
  · intro D E literals plainD plainE e he e' he' same
    rw [template_shown file D he, template_shown file E he', shown_of_endsPlain plainD,
      shown_of_endsPlain plainE] at same
    exact eq_of_templates literals (templates_eq_of_join_eq same)

/-- A handler in a route file. -/
def handlerRoute : Declaration where
  method := "get"
  path := []
  source := "app/api/route.ts"
  anchor := .file

def versionFolder : Folder := .literal "v1.0" (by decide) (forall_of_all (by decide))

def slugFolder : Folder :=
  .optionalSpread ⟨'s', ['l', 'u', 'g'], by decide, List.all_eq_true.mp (by decide)⟩

theorem template_routeFile_version :
    handlerRoute.anchor = .file ∧ EndsPlain [versionFolder, slugFolder] ∧ EndsPlain [versionFolder] ∧
      handlerRoute.template (routeFile [versionFolder, slugFolder] ".js") =
        ("/v1.0/\x7bslug\x7d" : Text) ∧
      handlerRoute.template (routeFile [versionFolder] ".ts") ≠
        handlerRoute.template (routeFile [] ".js") := by
  have spread : EndsPlain [versionFolder, slugFolder] := by
    rintro last ⟨⟩
    exact Folder.isScript_text rfl
  have version : EndsPlain [versionFolder] := by
    rintro last ⟨⟩
    decide
  have facts := @template_routeFile handlerRoute rfl
  have whole := (facts.1 [versionFolder, slugFolder] ".js" (by decide)).mpr spread
  refine ⟨rfl, spread, version, whole.trans (by decide), fun same => ?_⟩
  have literal : ∀ f ∈ [versionFolder] ++ [], f.isLiteral = true := List.forall_mem_singleton.mpr rfl
  have none : EndsPlain [] := fun _ h => by cases h
  exact List.cons_ne_nil _ _
    (facts.2 [versionFolder] [] literal version none ".ts" (by decide) ".js" (by decide) same)

/-- A folder that is named like a script is not served under its name, but under that of another
folder. -/
theorem template_scriptFolder :
    handlerRoute.template "app/api/sdk.js/route.ts" ≠ ("/sdk.js" : Text) ∧
      handlerRoute.template "app/api/sdk.js/route.ts" =
        handlerRoute.template "app/api/sdk/route.ts" := by
  decide +kernel

end RouteAtlas.Route
