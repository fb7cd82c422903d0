import AuraWellness.Lib.Chains
import AuraWellness.Lib.Wire

/-!
# Redirects between the pages of the frontend

The middleware decides by the cookie `auth_token`, the layout of the protected
pages by the cookie `user_info`, and the root page always sends on to the
dashboard. Where a token comes without a user the two send the browser back and
forth between `/dashboard` and `/login` forever. In every other case, and so with
all cookies that the frontend's own routes leave behind, the redirects end in a
rendered page.
-/

namespace AuraWellness.Frontend.Redirects

open AuraWellness.Lib.Chains AuraWellness.Lib.Json AuraWellness.Lib.Stringify
open AuraWellness.Lib.Wire (parse_stringify)

/-- `cookies.get(name)?.value` for the cookies of a request, by their names. -/
abbrev CookieJar := String → Option String

/-- What an optional string is worth as a condition. -/
def truthyText : Option String → Bool
  | some text => text ≠ ""
  | none => false

/-- `text.startsWith(start)`. -/
def startsWith (text start : String) : Bool := start.toList.isPrefixOf text.toList

/-- What the middleware answers. -/
inductive NextResponse
  /-- The request goes on to its route. -/
  | next
  /-- The browser is sent to another page. -/
  | redirect (pathname : String)
  deriving DecidableEq, Repr

/-- The paths that need no session. -/
def PUBLIC_PATHS : List String := ["/login", "/onboard"]

/-- `middleware`. -/
def middleware (jar : CookieJar) (pathname : String) : NextResponse :=
  if startsWith pathname "/_next" || startsWith pathname "/api" ||
      startsWith pathname "/favicon" then .next
  else
    let isAuthenticated := truthyText (jar "auth_token")
    let isPublicPath := PUBLIC_PATHS.any fun p => startsWith pathname p
    if !isAuthenticated && !isPublicPath then .redirect "/login"
    else if isAuthenticated && isPublicPath then .redirect "/dashboard"
    else .next

/-- `config.matcher`, `/((?!_next/static|_next/image|favicon.ico).*)`. The dot before
`ico` stands for any character, and a pathname has no line breaks. -/
def matcher (pathname : String) : Bool :=
  match pathname.toList with
  | '/' :: rest =>
    !("_next/static".toList.isPrefixOf rest || "_next/image".toList.isPrefixOf rest ||
      "favicon".toList.isPrefixOf rest && "ico".toList.isPrefixOf (rest.drop 8))
  | _ => false

/-- The pages of the app directory. -/
inductive Page
  | root
  | login
  | onboard
  | dashboard
  | businessUnits
  | changePassword
  | chat
  | chatAccess
  | staff
  deriving DecidableEq, Repr

/-- The pathname at which a page is served. -/
def Page.pathname : Page → String
  | root => "/"
  | login => "/login"
  | onboard => "/onboard"
  | dashboard => "/dashboard"
  | businessUnits => "/business-units"
  | changePassword => "/change-password"
  | chat => "/chat"
  | chatAccess => "/chat-access"
  | staff => "/staff"

/-- All pages. -/
def Page.all : List Page :=
  [.root, .login, .onboard, .dashboard, .businessUnits, .changePassword, .chat, .chatAccess, .staff]

/-- The page at a pathname. -/
def pageAt (pathname : String) : Option Page := Page.all.find? fun page => page.pathname = pathname

/-- What the browser receives. -/
inductive Response
  /-- The pathname of the next request. -/
  | redirect (pathname : String)
  /-- A page. -/
  | rendered (page : Page)
  /-- There is no page at the pathname. -/
  | noPage
  deriving DecidableEq, Repr

/-- `getAuthUser`; the result is a condition, so a missing user is JavaScript's `null`. -/
def getAuthUser (jar : CookieJar) : Value :=
  match jar "user_info" with
  | some raw => if raw = "" then .null else (parse raw).getD .null
  | none => .null

/-- `RootPage`. -/
def RootPage : Response := .redirect "/dashboard"

/-- `ProtectedLayout` around a page. -/
def ProtectedLayout (jar : CookieJar) (children : Page) : Response :=
  if !(getAuthUser jar).truthy then .redirect "/login" else .rendered children

/-- A page within the layouts of its route. -/
def Page.serve (jar : CookieJar) : Page → Response
  | .root => RootPage
  | .login => .rendered .login
  | .onboard => .rendered .onboard
  | .dashboard => ProtectedLayout jar .dashboard
  | .businessUnits => ProtectedLayout jar .businessUnits
  | .changePassword => ProtectedLayout jar .changePassword
  | .chat => ProtectedLayout jar .chat
  | .chatAccess => ProtectedLayout jar .chatAccess
  | .staff => ProtectedLayout jar .staff

/-- The route behind the middleware. -/
def route (jar : CookieJar) (pathname : String) : Response :=
  match pageAt pathname with
  | some page => page.serve jar
  | none => .noPage

/-- The response to a request for a pathname. -/
def respond (jar : CookieJar) (pathname : String) : Response :=
  if matcher pathname then
    match middleware jar pathname with
    | .redirect target => .redirect target
    | .next => route jar pathname
  else route jar pathname

/-- The pathname to which a response sends the browser. -/
def Response.target : Response → Option String
  | .redirect pathname => some pathname
  | .rendered _ => none
  | .noPage => none

/-- The pathname that follows on a pathname. No redirect sets a cookie, so all requests are
answered in the same way. -/
def redirected (answer : String → Response) (pathname : String) : Option String :=
  (answer pathname).target

/-- Following the redirects from a pathname comes to an end in a rendered page, and no
pathname is visited twice. -/
def RedirectsEnd (answer : String → Response) (pathname : String) : Prop :=
  ∃ visited last page, Follows (redirected answer) pathname visited last ∧
    answer last = .rendered page ∧ visited.Nodup

/-- The request carries a token. -/
def HasToken (jar : CookieJar) : Prop := ∃ token, jar "auth_token" = some token ∧ token ≠ ""

/-- The request carries a user: JSON of a value that is not falsy. -/
def HasUser (jar : CookieJar) : Prop :=
  ∃ raw user, jar "user_info" = some raw ∧ parse raw = some user ∧ user.truthy = true

theorem truthyText_iff {text : Option String} :
    truthyText text = true ↔ ∃ t, text = some t ∧ t ≠ "" := by
  cases text with
  | none => simp [truthyText]
  | some t => simp [truthyText]

theorem parse_empty : parse "" = none := by rfl

/-- The layout finds a user exactly if the request carries one. -/
theorem truthy_getAuthUser_iff {jar : CookieJar} :
    (getAuthUser jar).truthy = true ↔ HasUser jar := by
  unfold getAuthUser HasUser
  cases hraw : jar "user_info" with
  | none => simp [Value.truthy]
  | some raw =>
    by_cases hempty : raw = ""
    · subst hempty
      simp [Value.truthy, parse_empty]
    · cases hparse : parse raw with
      | none => simp [Value.truthy, hempty, hparse]
      | some user => simp [hempty, hparse]

/-- The page is in a group without the protected layout. -/
def Page.isPublic : Page → Bool
  | .login => true
  | .onboard => true
  | _ => false

theorem pageAt_pathname (page : Page) : pageAt page.pathname = some page := by
  cases page <;> rfl

theorem matcher_pathname (page : Page) : matcher page.pathname = true := by
  cases page <;> rfl

/-- The middleware skips no page. -/
theorem skips_pathname (page : Page) : (startsWith page.pathname "/_next" ||
    startsWith page.pathname "/api" || startsWith page.pathname "/favicon") = false := by
  cases page <;> rfl

/-- The public paths are prefixes of the pathnames of the public pages only. -/
theorem isPublicPath_pathname (page : Page) :
    (PUBLIC_PATHS.any fun p => startsWith page.pathname p) = page.isPublic := by
  cases page <;> rfl

/-- The middleware lets a page through when it is public exactly if there is no token. -/
theorem middleware_pathname (jar : CookieJar) (page : Page) :
    middleware jar page.pathname =
      if truthyText (jar "auth_token") = page.isPublic then
        if page.isPublic then .redirect "/dashboard" else .redirect "/login"
      else .next := by
  unfold middleware
  rw [skips_pathname, isPublicPath_pathname]
  cases truthyText (jar "auth_token") <;> cases page.isPublic <;> rfl

/-- What the browser receives at a page: the middleware redirects when the session does
not fit the page. -/
theorem respond_pathname (jar : CookieJar) (page : Page) :
    respond jar page.pathname =
      if truthyText (jar "auth_token") = page.isPublic then
        .redirect (if page.isPublic then "/dashboard" else "/login")
      else page.serve jar := by
  unfold respond route
  rw [matcher_pathname, if_pos rfl, middleware_pathname, pageAt_pathname]
  by_cases h : truthyText (jar "auth_token") = page.isPublic
  · rw [if_pos h, if_pos h]
    cases page.isPublic <;> rfl
  · rw [if_neg h, if_neg h]

theorem serve_public (jar : CookieJar) {page : Page} (h : page.isPublic = true) :
    page.serve jar = .rendered page := by
  cases page <;> first | rfl | cases h

/-- Behind the public pages only the root page does without the protected layout. -/
theorem serve_not_public (jar : CookieJar) {page : Page} (h : page.isPublic = false) :
    page.serve jar = if page = .root then RootPage else ProtectedLayout jar page := by
  cases page <;> first | rfl | cases h

theorem ProtectedLayout_of_user {jar : CookieJar} (h : HasUser jar) (page : Page) :
    ProtectedLayout jar page = .rendered page := by
  rw [ProtectedLayout, truthy_getAuthUser_iff.mpr h]
  rfl

theorem ProtectedLayout_of_no_user {jar : CookieJar} (h : ¬HasUser jar) (page : Page) :
    ProtectedLayout jar page = .redirect "/login" := by
  have hfalsy : (getAuthUser jar).truthy = false :=
    Bool.eq_false_iff.mpr fun htrue => h (truthy_getAuthUser_iff.mp htrue)
  rw [ProtectedLayout, hfalsy]
  rfl

theorem RedirectsEnd.of_rendered {answer : String → Response} {pathname : String} {page : Page}
    (h : answer pathname = .rendered page) : RedirectsEnd answer pathname := by
  refine ⟨[pathname], pathname, page, .stop ?_, h, List.nodup_singleton _⟩
  rw [redirected, h]
  rfl

theorem RedirectsEnd.of_redirect {answer : String → Response} {pathname target : String}
    (h : answer pathname = .redirect target) (hrest : RedirectsEnd answer target) :
    RedirectsEnd answer pathname := by
  obtain ⟨visited, last, page, hfollows, hlast, -⟩ := hrest
  have hnext : redirected answer pathname = some target := by
    rw [redirected, h]
    rfl
  have hall := Follows.go hnext hfollows
  exact ⟨_, last, page, hall, hlast, hall.nodup⟩

/-- Without a token the public pages are rendered and all others lead to the login page. -/
theorem redirectsEnd_without_token {jar : CookieJar} (h : ¬HasToken jar) (page : Page) :
    RedirectsEnd (respond jar) page.pathname := by
  have htoken : truthyText (jar "auth_token") = false :=
    Bool.eq_false_iff.mpr fun htrue => h (truthyText_iff.mp htrue)
  have hpublic : ∀ page : Page, page.isPublic = true → RedirectsEnd (respond jar) page.pathname := by
    intro page hpage
    have hanswer : respond jar page.pathname = .rendered page := by
      rw [respond_pathname, htoken, hpage, if_neg Bool.false_ne_true, serve_public jar hpage]
    exact .of_rendered hanswer
  cases hpage : page.isPublic with
  | true => exact hpublic page hpage
  | false =>
    have hanswer : respond jar page.pathname = .redirect "/login" := by
      rw [respond_pathname, htoken, hpage, if_pos rfl]
      rfl
    exact .of_redirect hanswer (hpublic .login rfl)

/-- With a token the public pages and the root page lead to the dashboard. -/
theorem respond_to_dashboard {jar : CookieJar} (h : HasToken jar) {page : Page}
    (hpage : page.isPublic = true ∨ page = .root) :
    respond jar page.pathname = .redirect "/dashboard" := by
  rw [respond_pathname, truthyText_iff.mpr h]
  obtain hpublic | rfl := hpage
  · rw [hpublic, if_pos rfl]
    rfl
  · rfl

/-- With a token the other pages are up to the protected layout. -/
theorem respond_protected {jar : CookieJar} (h : HasToken jar) {page : Page}
    (hpage : ¬(page.isPublic = true ∨ page = .root)) :
    respond jar page.pathname = ProtectedLayout jar page := by
  obtain ⟨hpublic, hroot⟩ := not_or.mp hpage
  have hfalse : page.isPublic = false := Bool.eq_false_iff.mpr hpublic
  rw [respond_pathname, truthyText_iff.mpr h, hfalse, if_neg Bool.false_ne_true.symm,
    serve_not_public jar hfalse, if_neg hroot]

/-- With a token and a user the protected pages are rendered and all others lead to the
dashboard. -/
theorem redirectsEnd_of_user {jar : CookieJar} (h : HasToken jar) (huser : HasUser jar)
    (page : Page) : RedirectsEnd (respond jar) page.pathname := by
  have hprotected : ∀ page : Page, ¬(page.isPublic = true ∨ page = .root) →
      RedirectsEnd (respond jar) page.pathname := fun page hpage =>
    .of_rendered ((respond_protected h hpage).trans (ProtectedLayout_of_user huser page))
  by_cases hpage : page.isPublic = true ∨ page = .root
  · exact .of_redirect (respond_to_dashboard h hpage) (hprotected .dashboard (by decide))
  · exact hprotected page hpage

/-- With a token but no user every page leads to another one, so the redirects never end. -/
theorem not_redirectsEnd {jar : CookieJar} (h : HasToken jar) (huser : ¬HasUser jar)
    (page : Page) : ¬RedirectsEnd (respond jar) page.pathname := by
  have hnext : ∀ pathname : String, (∃ page : Page, pathname = page.pathname) →
      ∃ next, redirected (respond jar) pathname = some next ∧
        ∃ page : Page, next = page.pathname := by
    rintro _ ⟨page, rfl⟩
    unfold redirected
    by_cases hpage : page.isPublic = true ∨ page = .root
    · rw [respond_to_dashboard h hpage]
      exact ⟨"/dashboard", rfl, .dashboard, rfl⟩
    · rw [respond_protected h hpage, ProtectedLayout_of_no_user huser]
      exact ⟨"/login", rfl, .login, rfl⟩
  rintro ⟨visited, last, -, hfollows, -, -⟩
  exact not_ends_of_invariant hnext ⟨page, rfl⟩ ⟨visited, last, hfollows⟩

/-- Where a token does not come without a user, the redirects end. -/
theorem redirectsEnd_of_fits {jar : CookieJar} (h : HasToken jar → HasUser jar) (page : Page) :
    RedirectsEnd (respond jar) page.pathname := by
  by_cases htoken : HasToken jar
  · exact redirectsEnd_of_user htoken (h htoken) page
  · exact redirectsEnd_without_token htoken page

/-- The redirects from any page end in a rendered page, without visiting a pathname twice,
exactly if a token does not come without a user. -/
theorem redirectsEnd_iff (jar : CookieJar) (page : Page) :
    RedirectsEnd (respond jar) page.pathname ↔ (HasToken jar → HasUser jar) := by
  constructor
  · intro hends htoken
    by_contra huser
    exact not_redirectsEnd htoken huser page hends
  · intro hfits
    exact redirectsEnd_of_fits hfits page

/-- A session whose user is missing. -/
def tokenOnly : CookieJar := fun name => if name = "auth_token" then some "token" else none

/-- With a token alone the dashboard and the login page send the browser back and forth. -/
theorem redirects_endless :
    ¬∀ (jar : CookieJar) (page : Page), RedirectsEnd (respond jar) page.pathname := by
  intro hall
  have htoken : HasToken tokenOnly := ⟨"token", rfl, by decide⟩
  have huser : ¬HasUser tokenOnly := by
    rintro ⟨raw, user, hraw, -, -⟩
    cases hraw
  exact not_redirectsEnd htoken huser .dashboard (hall tokenOnly .dashboard)

/-- The pages and their layouts alone never send the browser in a circle. -/
theorem redirectsEnd_route (jar : CookieJar) (page : Page) :
    RedirectsEnd (route jar) page.pathname := by
  have hroute : ∀ page : Page, route jar page.pathname = page.serve jar := fun page => by
    rw [route, pageAt_pathname]
  have hlogin : RedirectsEnd (route jar) "/login" := .of_rendered (hroute .login)
  have hprotected : ∀ page : Page, page.isPublic = false → page ≠ .root →
      RedirectsEnd (route jar) page.pathname := by
    intro page hpage hroot
    have hanswer := (hroute page).trans ((serve_not_public jar hpage).trans (if_neg hroot))
    by_cases huser : HasUser jar
    · exact .of_rendered (hanswer.trans (ProtectedLayout_of_user huser page))
    · exact .of_redirect (hanswer.trans (ProtectedLayout_of_no_user huser page)) hlogin
  cases hpage : page.isPublic with
  | true => exact .of_rendered ((hroute page).trans (serve_public jar hpage))
  | false =>
    by_cases hroot : page = .root
    · have hanswer : route jar page.pathname = .redirect "/dashboard" := by
        rw [hroot]
        exact hroute .root
      exact .of_redirect hanswer (hprotected .dashboard rfl (by decide))
    · exact hprotected page hpage hroot

/-! The cookies that the frontend's own routes leave behind. -/

/-- What the backend answers to a login that needs no further choice. -/
structure LoginResponse where
  token : String
  personId : String
  buId : String
  companyId : String
  role : String
  firstName : String
  lastName : String

/-- The object that the login route stores in `user_info`. -/
def LoginResponse.user (data : LoginResponse) : List (String × String) :=
  [("personId", data.personId), ("buId", data.buId), ("companyId", data.companyId),
    ("role", data.role), ("firstName", data.firstName), ("lastName", data.lastName)]

/-- What changes the cookies. -/
inductive CookieEvent
  /-- The login route sets both cookies. -/
  | login (data : LoginResponse)
  /-- The logout route deletes both. -/
  | logout
  /-- The proxy deletes both when the backend answers 401. -/
  | sessionExpired
  /-- Their common maximum age is over. -/
  | aged

/-- Both cookies are deleted. -/
def CookieJar.clear (jar : CookieJar) : CookieJar := fun name =>
  if name = "auth_token" ∨ name = "user_info" then none else jar name

/-- The cookies afterwards. -/
def CookieJar.apply (jar : CookieJar) : CookieEvent → CookieJar
  | .login data => fun name =>
    if name = "auth_token" then some data.token
    else if name = "user_info" then some (stringify data.user)
    else jar name
  | .logout => jar.clear
  | .sessionExpired => jar.clear
  | .aged => jar.clear

/-- After each event a token does not come without a user. -/
theorem hasUser_apply (jar : CookieJar) (event : CookieEvent) :
    HasToken (jar.apply event) → HasUser (jar.apply event) := by
  have hclear : HasToken jar.clear → HasUser jar.clear := by
    rintro ⟨token, htoken, -⟩
    cases htoken
  cases event with
  | login data =>
    intro _
    exact ⟨stringify data.user, record data.user, rfl, parse_stringify data.user, rfl⟩
  | logout => exact hclear
  | sessionExpired => exact hclear
  | aged => exact hclear

/-- Whatever logins and logouts a browser has been through, the redirects end. -/
theorem redirectsEnd_foldl {jar : CookieJar} (h : HasToken jar → HasUser jar)
    (events : List CookieEvent) (page : Page) :
    RedirectsEnd (respond (events.foldl CookieJar.apply jar)) page.pathname := by
  induction events generalizing jar with
  | nil => exact redirectsEnd_of_fits h page
  | cons event events ih => exact ih (hasUser_apply jar event)

end AuraWellness.Frontend.Redirects
