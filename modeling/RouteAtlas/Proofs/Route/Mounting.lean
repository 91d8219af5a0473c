import RouteAtlas.Proofs.Route.Translation
import RouteAtlas.Route.Declaration

/-!
# Mounted routers

Where a router's file lies and what the router declares are put together part by part
(`parts_mounted`). `template_router` says what a route of a router in a mount directory becomes: the
folders, the name of the file unless the last folder has it, and the segments of the route.
-/

namespace RouteAtlas.Route

open Text

/-! ### Names of folders and files -/

/-- Letters and numerals of any script, underscores and hyphens. -/
def IsName (t : Text) : Prop := t ≠ [] ∧ ∀ x ∈ t, isWord x = true ∨ x = '-'

theorem inside_eq_ble (edges : List Nat) (n : Nat) :
    inside edges n = (edges.countP (Nat.ble · n) % 2 == 1) := by
  have same : (fun a => decide (a ≤ n)) = (Nat.ble · n) := by
    funext a
    rw [Bool.eq_iff_iff, decide_eq_true_iff, Nat.ble_eq]
  rw [inside, same]

/-- No blank above ASCII is a letter or numeral. -/
theorem inside_wordEdges_blank :
    ∀ n ∈ [0x85, 0xA0, 0x1680, 0x2028, 0x2029, 0x202F, 0x205F, 0x3000] ++ List.range' 0x2000 11,
      inside wordEdges n = false := by
  -- `Nat.ble` is evaluated by the kernel itself, `decide (a ≤ n)` is not.
  simp only [inside_eq_ble]
  decide +kernel

theorem isBlank_of_isWord {x : Char} (h : isWord x = true) : isBlank x = false := by
  unfold isWord at h
  split at h
  · exact isBlank_of_isIdentifier h
  · rename_i large
    by_contra blank
    rw [Bool.not_eq_false] at blank
    simp only [isBlank, if_neg large, Bool.or_eq_true, beq_iff_eq, decide_eq_true_eq] at blank
    have out := inside_wordEdges_blank x.toNat (by simp; omega)
    rw [out] at h
    cases h

theorem notWord_of_isBlank {x : Char} (blank : isBlank x = true) : isWord x = false := by
  cases word : isWord x with
  | false => rfl
  | true =>
    rw [isBlank_of_isWord word] at blank
    cases blank

/-- The characters of names are plain and neither dots nor backslashes nor line feeds. -/
theorem plain_of_name {x : Char} (h : isWord x = true ∨ x = '-') :
    isPlain x = true ∧ x ≠ '.' ∧ x ≠ '\\' ∧ x ≠ '\n' := by
  rcases h with word | rfl
  · have other {y : Char} (ascii : y.toNat < 128 ∧ isIdentifier y = false) : x ≠ y := by
      rintro rfl
      rw [isWord, if_pos ascii.1, ascii.2] at word
      cases word
    have marks : ∀ y ∈ ("/[]$<>\x7b\x7d:()" : Text), y.toNat < 128 ∧ isIdentifier y = false :=
      forall_of_all (by decide)
    have unmarked : x ∉ ("/[]$<>\x7b\x7d:()" : Text) := fun h => other (marks x h) rfl
    refine ⟨?_, other (by decide), other (by decide), other (by decide)⟩
    rw [isPlain, isBlank_of_isWord word]
    simpa using unmarked
  · decide

theorem isPlain_of_isName {t : Text} (h : IsName t) : ∀ x ∈ t, isPlain x = true :=
  fun x hx => (plain_of_name (h.2 x hx)).1

theorem slash_notMem_of_isName {t : Text} (h : IsName t) : '/' ∉ t :=
  Segment.notMem_of_isPlain (isPlain_of_isName h) (by decide)

/-! ### From the file to its base path -/

/-- A mount directory contributes nothing, and none of the others is taken for it. -/
theorem findSome?_below? {m : Text} (mount : m ∈ mounts) (rest : Text) :
    mounts.findSome? (below? · (m ++ '/' :: rest)) = some ('/' :: rest) := by
  simp only [mounts, List.mem_cons, List.not_mem_nil, or_false] at mount
  rcases mount with rfl | rfl | rfl | rfl | rfl | rfl <;> rfl

theorem plain_mount {m : Text} (mount : m ∈ mounts) {rest : Text} (free : '\\' ∉ rest) :
    Tree.plain (m ++ rest) = m ++ rest := by
  have clean : ∀ m ∈ mounts, '\\' ∉ m := by decide
  have same : swap '\\' '/' (m ++ rest) = m ++ rest := by
    refine (List.map_congr_left fun c hc => if_neg ?_).trans (List.map_id _)
    rintro rfl
    exact (List.mem_append.mp hc).elim (clean m mount) free
  simp only [mounts, List.mem_cons, List.not_mem_nil, or_false] at mount
  rw [Tree.plain, same]
  rcases mount with rfl | rfl | rfl | rfl | rfl | rfl <;> rfl

theorem dropSuffix_of_noLine {path : Text} (line : '\n' ∉ path) (endings : List Text) :
    dropSuffix endings path = (endings.findSome? (before? · path)).getD path := by
  have whole : before? "\n" path = none :=
    before?_eq_none_of_notMem (List.mem_singleton.mpr rfl) line
  rw [dropSuffix, whole]
  exact List.append_nil _

/-- The endings of route files: those of files that are named as routers, and the others. -/
def routerEndings : List Text := [".router.ts", ".router.js"]

def plainEndings : List Text := [".ts", ".js"]

theorem foldl_dropSuffix_router {body ending : Text} (dot : '.' ∉ body) (line : '\n' ∉ body)
    (known : ending ∈ routerEndings) :
    suffixes.foldl (fun path endings => dropSuffix endings path) (body ++ ending) = body := by
  have quiet : ∀ e ∈ routerEndings, '\n' ∉ e := by decide
  have line' : '\n' ∉ body ++ ending := by simp [line, quiet ending known]
  simp only [routerEndings, List.mem_cons, List.not_mem_nil, or_false] at known
  have first : dropSuffix ["/route.ts", "/route.js"] (body ++ ending) = body ++ ending := by
    rw [dropSuffix_of_noLine line']
    rcases known with rfl | rfl <;> simp [before?, after?]
  have second : dropSuffix [".router.ts", ".router.js"] (body ++ ending) = body := by
    rw [dropSuffix_of_noLine line']
    rcases known with rfl | rfl <;> simp [before?, after?]
  have third : dropSuffix [".ts", ".js"] body = body := by
    rw [dropSuffix_of_noLine line]
    have absent (tail : Text) (h : '.' ∈ tail) : before? tail body = none :=
      before?_eq_none_of_notMem h dot
    simp [absent]
  simp only [suffixes, List.foldl_cons, List.foldl_nil, first, second, third]

theorem foldl_dropSuffix_plain {body ending : Text} (dot : '.' ∉ body) (line : '\n' ∉ body)
    (other : before? "/route" body = none) (known : ending ∈ plainEndings) :
    suffixes.foldl (fun path endings => dropSuffix endings path) (body ++ ending) = body := by
  have quiet : ∀ e ∈ plainEndings, '\n' ∉ e := by decide
  have line' : '\n' ∉ body ++ ending := by simp [line, quiet ending known]
  simp only [plainEndings, List.mem_cons, List.not_mem_nil, or_false] at known
  have router : before? ".router" body = none :=
    before?_eq_none_of_notMem (c := '.') (by decide) dot
  have first : dropSuffix ["/route.ts", "/route.js"] (body ++ ending) = body ++ ending := by
    rw [dropSuffix_of_noLine line']
    simp only [before?, Option.map_eq_none_iff] at other
    rcases known with rfl | rfl <;> simp_all [before?, after?]
  have second : dropSuffix [".router.ts", ".router.js"] (body ++ ending) = body ++ ending := by
    rw [dropSuffix_of_noLine line']
    simp only [before?, Option.map_eq_none_iff] at router
    rcases known with rfl | rfl <;> simp_all [before?, after?]
  have third : dropSuffix [".ts", ".js"] (body ++ ending) = body := by
    rw [dropSuffix_of_noLine line']
    rcases known with rfl | rfl <;> simp [before?, after?]
  simp only [suffixes, List.foldl_cons, List.foldl_nil, first, second, third]

theorem split_names {names : List Text} (nonempty : names ≠ []) (named : ∀ n ∈ names, IsName n) :
    split '/' ('/' :: join "/" names) = [] :: names := by
  have whole : split '/' (join "/" names) = names :=
    split_join nonempty fun n hn => slash_notMem_of_isName (named n hn)
  rw [split_sep_cons, whole]

theorem before?_route {names : List Text} (nonempty : names ≠ []) (named : ∀ n ∈ names, IsName n)
    (other : names.getLast? ≠ some ("route" : Text)) :
    before? "/route" ('/' :: join "/" names) = none := by
  rw [Option.eq_none_iff_forall_ne_some]
  intro body found
  have same : split '/' ('/' :: join "/" names) = split '/' body ++ [("route" : Text)] :=
    (congrArg (split '/') (before?_eq_some_iff.mp found)).trans
      (split_append_sep_append '/' body "route")
  rw [split_names nonempty named] at same
  have last := congrArg List.getLast? same
  rw [List.getLast?_concat, List.getLast?_cons_of_ne_nil nonempty] at last
  exact other last

theorem locationPath_eq {file path rest base : Text} (clean : Tree.plain file = path)
    (mount : mounts.findSome? (below? · path) = some rest)
    (dropped : suffixes.foldl (fun path endings => dropSuffix endings path) rest = '/' :: base) :
    locationPath file = '/' :: base := by
  simp only [locationPath, clean, mount, Option.getD_some, dropped, List.cons_ne_nil, if_false]
  rfl

/-- The base path of a file in folders below a mount directory is made of the folders and the file's
name. -/
theorem locationPath_mount {m : Text} (mount : m ∈ mounts) {names : List Text}
    (nonempty : names ≠ []) (named : ∀ n ∈ names, IsName n) {ending : Text}
    (known : ending ∈ routerEndings ∨
      ending ∈ plainEndings ∧ names.getLast? ≠ some ("route" : Text)) :
    locationPath (m ++ '/' :: join "/" names ++ ending) = '/' :: join "/" names := by
  have free {x : Char} (slash : x ≠ '/') (other : ∀ n ∈ names, x ∉ n) :
      x ∉ '/' :: join "/" names := by
    intro h
    rcases List.mem_cons.mp h with here | h
    · exact slash here
    · rcases mem_join h with here | ⟨n, hn, inside⟩
      · exact slash here
      · exact other n hn inside
  have dot : '.' ∉ '/' :: join "/" names :=
    free (by decide) fun n hn h => (plain_of_name ((named n hn).2 _ h)).2.1 rfl
  have back : '\\' ∉ '/' :: join "/" names :=
    free (by decide) fun n hn h => (plain_of_name ((named n hn).2 _ h)).2.2.1 rfl
  have line : '\n' ∉ '/' :: join "/" names :=
    free (by decide) fun n hn h => (plain_of_name ((named n hn).2 _ h)).2.2.2 rfl
  have clean : '\\' ∉ ending := by
    have quiet : ∀ e ∈ routerEndings ++ plainEndings, '\\' ∉ e := by decide
    exact quiet ending (List.mem_append.mpr (known.imp_right And.left))
  have dropped : suffixes.foldl (fun path endings => dropSuffix endings path)
      ('/' :: join "/" names ++ ending) = '/' :: join "/" names := by
    rcases known with router | ⟨plain, other⟩
    · exact foldl_dropSuffix_router dot line router
    · exact foldl_dropSuffix_plain dot line (before?_route nonempty named other) plain
  have plain : Tree.plain (m ++ '/' :: join "/" names ++ ending) =
      m ++ '/' :: (join "/" names ++ ending) := by
    rw [List.append_assoc]
    exact plain_mount mount (by simpa [clean] using back)
  exact locationPath_eq plain (findSome?_below? mount _) dropped

/-! ### From the base path to the route -/

theorem parts_mounted (base endpoint : Text) : parts (mounted base endpoint) =
    parts (collapsed (if base = "/" then [] else base)) ++ parts endpoint := by
  have combined (b : Text) :
      parts (if endpoint = [] ∨ endpoint = "/" then b else b ++ '/' :: endpoint) =
        parts b ++ parts endpoint := by
    split
    · rename_i none
      rcases none with rfl | rfl <;> exact (List.append_nil _).symm
    · exact parts_append b endpoint
  have shown (t : Text) : parts (if t = [] then "/" else t) = parts t := by
    split
    · rename_i none
      rw [none]
      rfl
    · rfl
  rw [← combined]
  exact (shown _).trans (parts_squeeze _)

/-- The folders and the file, where a folder in front of a file of its own name stands for both. -/
def once (folders : List Text) (file : Text) : List Text :=
  if folders.getLast? = some file then folders else folders ++ [file]

theorem collapsed_names {folders : List Text} {file : Text}
    (named : ∀ n ∈ folders ++ [file], IsName n) :
    collapsed ('/' :: join "/" (folders ++ [file])) = '/' :: join "/" (once folders file) := by
  have split := split_names (by simp) named
  unfold collapsed once
  rw [split]
  rcases List.eq_nil_or_concat folders with rfl | ⟨outer, folder, rfl⟩
  · have nonempty : file ≠ [] := (named file (by simp)).1
    simp [nonempty]
  · have front : join "/" ([] :: (outer ++ [folder])) = '/' :: join "/" (outer ++ [folder]) := by
      cases outer <;> rfl
    by_cases same : file = folder
    · subst same
      simpa using front
    · simp [same, Ne.symm same]

/-- The path that a router declares: nothing, a slash, or segments each behind a slash. -/
def IsEndpoint (path : Text) (segs : List Segment) : Prop :=
  path = [] ∧ segs = [] ∨ path = '/' :: join "/" (segs.map Segment.text)

theorem parts_endpoint {path : Text} {segs : List Segment} (h : IsEndpoint path segs) :
    parts path = segs.map Segment.text := by
  rcases h with ⟨rfl, rfl⟩ | rfl
  · rfl
  · rw [parts_slash]
    refine parts_join fun v hv => ?_
    obtain ⟨seg, _, rfl⟩ := List.mem_map.mp hv
    exact ⟨Segment.text_ne_nil, Segment.slash_notMem_text⟩

theorem isName_once {folders : List Text} {file : Text}
    (named : ∀ n ∈ folders ++ [file], IsName n) : ∀ n ∈ once folders file, IsName n := by
  intro n hn
  unfold once at hn
  split at hn
  · exact named n (List.mem_append_left _ hn)
  · exact named n hn

theorem exists_literals {names : List Text} (named : ∀ n ∈ names, IsName n) :
    ∃ segs : List Segment, segs.map Segment.text = names ∧ segs.map Segment.template = names := by
  induction names with
  | nil => exact ⟨[], rfl, rfl⟩
  | cons n names ih =>
    obtain ⟨segs, texts, templates⟩ := ih fun v hv => named v (List.mem_cons_of_mem n hv)
    have name := named n List.mem_cons_self
    exact ⟨.literal n name.1 (isPlain_of_isName name) :: segs, congrArg (n :: ·) texts,
      congrArg (n :: ·) templates⟩

/-- A route of a router below a mount directory is made of the folders, the file's name and the
segments of the route; only a folder in front of a file of its own name stands for both. -/
theorem template_router {m : Text} (mount : m ∈ mounts) {folders : List Text} {file : Text}
    (named : ∀ n ∈ folders ++ [file], IsName n) {ending : Text}
    (known : ending ∈ routerEndings ∨ ending ∈ plainEndings ∧ file ≠ ("route" : Text))
    {d : Declaration} (router : d.anchor = .router) {segs : List Segment}
    (endpoint : IsEndpoint d.path segs) :
    d.template (m ++ '/' :: join "/" (folders ++ [file]) ++ ending) =
      '/' :: join "/" (once folders file ++ segs.map Segment.template) := by
  have located := @locationPath_mount m mount _ (by simp) named ending
    (known.imp_right fun h => ⟨h.1, by simpa using h.2⟩)
  have named' := isName_once named
  have base : '/' :: join "/" (folders ++ [file]) ≠ "/" := by
    intro same
    have stretches := split_names (by simp) named
    rw [same] at stretches
    have last : some [] = some file := by
      have := congrArg List.getLast? stretches
      rwa [← List.cons_append, List.getLast?_concat] at this
    exact (named file (by simp)).1 (Option.some.inj last).symm
  have names : parts (join "/" (once folders file)) = once folders file :=
    parts_join fun n hn => ⟨(named' n hn).1, slash_notMem_of_isName (named' n hn)⟩
  obtain ⟨literals, texts, templates⟩ := exists_literals named'
  have whole : parts (mounted ('/' :: join "/" (folders ++ [file])) d.path) =
      (literals ++ segs).map Segment.text := by
    rw [parts_mounted, if_neg base, collapsed_names named, parts_slash, names,
      parts_endpoint endpoint, List.map_append, texts]
  have template : d.template (m ++ '/' :: join "/" (folders ++ [file]) ++ ending) =
      canonical (mounted (locationPath (m ++ '/' :: join "/" (folders ++ [file]) ++ ending))
        d.path) := by
    simp only [Declaration.template, place, router]
  rw [template, located, canonical_of_parts whole, List.map_append, templates]

/-- A route of a router whose file and folders all have one name. -/
def repeatedName : Declaration where
  method := "get"
  path := "/[id]/(.*)"
  source := "src/modules/auth/auth/auth.router.ts"
  anchor := .router

theorem template_router_repeatedName :
    (∀ n ∈ ([("auth" : Text), ("auth" : Text)] ++ [("auth" : Text)]), IsName n) ∧
      (∃ segs, IsEndpoint repeatedName.path segs) ∧
      repeatedName.template "src/modules/auth/auth/auth.router.ts" =
        ("/auth/auth/\x7bid\x7d/\x7bpath\x7d" : Text) := by
  have auth : IsName "auth" := ⟨by decide, forall_of_all (by decide)⟩
  have named : ∀ n ∈ ([("auth" : Text), ("auth" : Text)] ++ [("auth" : Text)]), IsName n :=
    List.forall_mem_cons.mpr ⟨auth, List.forall_mem_cons.mpr ⟨auth,
      List.forall_mem_singleton.mpr auth⟩⟩
  have endpoint : IsEndpoint repeatedName.path
      [.named .bracket ⟨'i', ['d'], by decide, List.all_eq_true.mp (by decide)⟩, .anything] :=
    .inr rfl
  refine ⟨named, ⟨_, endpoint⟩, ?_⟩
  have mount : ("src/modules" : Text) ∈ mounts := by decide
  have ending : (".router.ts" : Text) ∈ routerEndings := by decide
  exact template_router mount named (.inl ending) rfl endpoint

end RouteAtlas.Route
