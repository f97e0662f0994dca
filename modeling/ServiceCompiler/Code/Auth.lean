import ServiceCompiler.Code.Statement

namespace ServiceCompiler.Code

open Package

/-!
# Token authentication

The package that checks tokens, and the routes for registering and logging in.
-/

/-! ### Tokens -/

def secretFunction : Declaration :=
  function "Secret() []byte" ["Secret returns the token signing key, JWT_SECRET when set."]
    [os]
    (block "if s := os.Getenv(\"JWT_SECRET\"); s != \"\"" ["return []byte(s)"]
      ++ ["return []byte(\"secret\")"])

def signFunction : Declaration :=
  function "Sign(username string) (string, error)" ["Sign issues an HS256 token naming username."]
    [.jwt]
    ["token := " ++ call "jwt.NewWithClaims"
        ["jwt.SigningMethodHS256", braced "jwt.MapClaims" (lit "name" ++ ": username")],
     "return token.SignedString(Secret())"]

/-- Requires a token. -/
def authenticateFunction : Declaration :=
  function "Authenticate(c *gin.Context)"
    ["Authenticate requires a valid bearer token. A missing token is",
     "answered with 401 and an invalid one with 403. The claims of a",
     "valid token are stored under \"user\"."]
    [.gin, .jwt, http, strings]
    (["raw, ok := strings.CutPrefix(c.GetHeader(\"Authorization\"), \"Bearer \")"]
      ++ block "if !ok || raw == \"\"" ["c.AbortWithStatus(http.StatusUnauthorized)", "return"]
      ++ ["claims := " ++ braced "jwt.MapClaims" ""]
      ++ blockWith
        (", jwt.WithValidMethods(" ++ braced "[]string" "jwt.SigningMethodHS256.Alg()" ++ "))")
        "_, err := jwt.ParseWithClaims(raw, claims, func(*jwt.Token) (any, error)"
        ["return Secret(), nil"]
      ++ onError ["c.AbortWithStatus(http.StatusForbidden)", "return"]
      ++ ["c.Set(\"user\", claims)", "c.Next()"])

def authFile : SourceFile where
  package := "auth"
  declarations := [secretFunction, signFunction, authenticateFunction]

/-! ### Registering and logging in -/

def usersTable : String := "users"

def registerAuthFunction : Declaration :=
  function "RegisterAuth(r gin.IRouter)" ["RegisterAuth mounts the register and login routes."] [.gin]
    ["r.POST(\"/register\", authRegister)", "r.POST(\"/login\", authLogin)"]

/-- A handler that has no database to work with. -/
def unavailableFunction (name : String) : Declaration :=
  function (name ++ "(c *gin.Context)") [] [.gin, http]
    (respondError "StatusNotImplemented" "no database configured")

/-- The cost of hashing passwords. -/
def passwordCost (cost : Int) : Declaration where
  kind := .constant
  doc := ["passwordCost is the bcrypt cost of stored password hashes."]
  uses := []
  lines := ["const passwordCost = " ++ Text.decimalInt cost]

/-- What both routes read from the request. -/
def credentialsType : Declaration where
  kind := .type
  uses := []
  lines :=
    block "type credentials struct"
      ["Username string \x60json:\"username\"\x60", "Password string \x60json:\"password\"\x60"]

/-- Reads user name and password. -/
def readCredentials : List String :=
  ["var body credentials"]
    ++ block ("if err := c.ShouldBindJSON(&body); err != nil || body.Username == \"\""
        ++ " || body.Password == \"\"")
      (respondError "StatusBadRequest" "Username and password required")
    ++ ["ctx := c.Request.Context()"]

def userLookup (e : Engine) : BoundStatement where
  statement := e.selectOneBy usersTable "username"
  arguments := [⟨"username", "body.Username"⟩]

/-- Stores a user. -/
def userInsert (e : Engine) : BoundStatement where
  statement := e.insert usersTable ["username", "password"]
  arguments := [⟨"username", "body.Username"⟩, ⟨"password", "string(hash)"⟩]

def registerHandler (e : Engine) : Declaration :=
  function "authRegister(c *gin.Context)" []
    ([gin, http, .bcrypt] ++ (userLookup e).uses e ++ (userInsert e).uses e)
    (readCredentials ++ (userLookup e).query e
      ++ block "if len(result) > 0" (respondError "StatusConflict" "User already exists")
      ++ ["hash, err := bcrypt.GenerateFromPassword([]byte(body.Password), passwordCost)"]
      ++ onError passError
      ++ ifFails ("_, err := " ++ (userInsert e).send e "ExecContext") passError
      ++ [respond "StatusOK" (reply "message" (lit "User registered successfully"))])

/-- The handler that logs a user in. -/
def loginHandler (e : Engine) : Declaration :=
  function "authLogin(c *gin.Context)" []
    ([gin, http, .bcrypt, .own "auth"] ++ (userLookup e).uses e)
    (readCredentials ++ (userLookup e).query e
      ++ block "if len(result) == 0" (respondError "StatusUnauthorized" "Invalid credentials")
      ++ ["var hash []byte", "switch v := result[0][\"password\"].(type) \x7b"]
      ++ caseOf "string" ["hash = []byte(v)"] ++ caseOf "[]byte" ["hash = v"] ++ ["\x7d"]
      ++ block "if bcrypt.CompareHashAndPassword(hash, []byte(body.Password)) != nil"
        (respondError "StatusUnauthorized" "Invalid credentials")
      ++ ["token, err := auth.Sign(body.Username)"]
      ++ onError passError
      ++ [respond "StatusOK" (reply "accessToken" "token")])

def authRoutesFile (settings : Settings) (engine : Option Engine) : SourceFile where
  package := "routes"
  declarations :=
    registerAuthFunction ::
      match engine with
      | none => [unavailableFunction "authRegister", unavailableFunction "authLogin"]
      | some e =>
        [passwordCost settings.bcryptCost, credentialsType, registerHandler e, loginHandler e]

end ServiceCompiler.Code
