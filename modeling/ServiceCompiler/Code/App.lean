import ServiceCompiler.Code.Source

namespace ServiceCompiler.Code

open Package

/-!
# The entry point

The main file of the generated service: environment, database, middleware chain, routes, server.
-/

/-- A call that adds a handler to the chain. -/
def use (handler : String) : String := call "router.Use" [handler]

/-- The line of a middleware and the packages it uses; kinds that are not known have none. -/
def middlewareLine (m : Middleware) : List String × List Package :=
  match m.kind with
  | .json => ([use "parseJSON"], [])
  | .cors => ([use "cors.Default()"], [.cors])
  | .logger => ([use "gin.Logger()"], [.gin])
  | .static =>
    ([use (call "static.Serve" [lit "/", call "static.LocalFile" [lit m.arg, "false"]])], [.static])
  | .other _ => ([], [])

/-- Logs an error and ends the program. -/
def fatal (message : String) : List String :=
  [call "slog.Error" [lit message, lit "error", "err"], call "os.Exit" ["1"]]

def mainFunction (s : Service) (hasEngine : Bool) : Declaration :=
  let address := lit (":" ++ Text.decimalInt s.listenPort)
  let environment :=
    if s.envFile = "" then []
    else ifFails ("err := " ++ call "godotenv.Load" [lit s.envFile])
      [call "slog.Warn" [lit "load environment", lit "file", lit s.envFile, lit "error", "err"]]
  let chain := s.middlewares.map middlewareLine
  function "main()" []
    ([context, .gin, .own "routes", slog, os]
      ++ (if s.envFile = "" then [] else [.godotenv])
      ++ (if hasEngine then [.own "db"] else [])
      ++ chain.flatMap (·.2))
    (environment
      ++ ["ctx := context.Background()"]
      ++ (if hasEngine then ["db.Init(ctx)"] else [])
      ++ ["", "router := gin.New()"]
      ++ chain.flatMap (·.1)
      ++ [""]
      ++ ifFails "err := routes.Mount(ctx, router.Group(\"/\", handleErrors))" (fatal "mount routes")
      ++ ["", call "slog.Info" [lit "server listening", lit "addr", address]]
      ++ ifFails ("err := " ++ call "router.Run" [address]) (fatal "server stopped"))

/-- Rejects requests whose body should be JSON and is not. -/
def parseJson : Declaration :=
  function "parseJSON(c *gin.Context)"
    ["parseJSON rejects JSON requests whose body does not parse."]
    [.gin, io, json, http, bytes]
    (block "if c.ContentType() == gin.MIMEJSON && c.Request.Body != nil"
      (["body, err := io.ReadAll(c.Request.Body)"]
        ++ block "if err != nil || (len(body) > 0 && !json.Valid(body))"
          [call "c.AbortWithStatusJSON" ["http.StatusBadRequest",
            reply "error" (lit "invalid JSON body")], "return"]
        ++ ["c.Request.Body = io.NopCloser(bytes.NewReader(body))"])
      ++ ["c.Next()"])

/-- Answers requests whose handler failed without an answer. -/
def handleErrors : Declaration :=
  function "handleErrors(c *gin.Context)"
    ["handleErrors answers 500 with the last handler error when the",
     "handler did not write a response itself."]
    [.gin, slog, http]
    (["c.Next()"]
      ++ block "if err := c.Errors.Last(); err != nil && !c.Writer.Written()"
        [call "slog.Error" [lit "request failed", lit "path", "c.Request.URL.Path", lit "error",
          "err.Err"],
         respond "StatusInternalServerError" (reply "error" "err.Error()")])

def appFile (s : Service) (hasEngine : Bool) : SourceFile where
  package := "main"
  declarations :=
    [mainFunction s hasEngine] ++ (if s.hasMiddleware .json then [parseJson] else [])
      ++ [handleErrors]

end ServiceCompiler.Code
