import ServiceCompiler.Text.Basic

namespace ServiceCompiler.Scaffold

/-!
# Sources of the client project

The files that a client project gets, and the element that takes the place of its start page.
-/

/-- A text of lines. -/
def lines (ls : List String) : String := String.join (ls.map (· ++ "\n"))

/-- The access to the backend, which listens at the given address. -/
def backendSource (backend : String) : String :=
  lines [
    "import axios from 'axios';",
    "",
    "const axiosInstance = axios.create(\x7b",
    "  baseURL: '" ++ backend ++ "',",
    "  headers: \x7b 'Content-Type': 'application/json' \x7d,",
    "\x7d);",
    "",
    "axiosInstance.interceptors.request.use((config) => \x7b",
    "  const token = localStorage.getItem('accessToken');",
    "  if (token) \x7b",
    "    config.headers.Authorization = \x60Bearer $\x7btoken\x7d\x60;",
    "  \x7d",
    "  return config;",
    "\x7d);",
    "",
    "export default axiosInstance;" ]

/-- A form that sends a name and a password: the component's name, the lines that send, and the text
    shown when that fails. -/
def formSource (name : String) (send : List String) (failure : String) : String :=
  lines ([
    "import \x7b useState \x7d from 'react';",
    "import \x7b useNavigate \x7d from 'react-router-dom';",
    "import axiosInstance from './axiosInstance';",
    "",
    "function " ++ name ++ "() \x7b",
    "  const [username, setUsername] = useState('');",
    "  const [password, setPassword] = useState('');",
    "  const [error, setError] = useState('');",
    "  const navigate = useNavigate();",
    "",
    "  const handleSubmit = async (e) => \x7b",
    "    e.preventDefault();",
    "    setError('');",
    "    try \x7b" ]
    ++ send ++ [
    "    \x7d catch (err) \x7b",
    "      setError(err.response?.data?.error || '" ++ failure ++ "');",
    "    \x7d",
    "  \x7d;",
    "",
    "  return (",
    "    <form onSubmit=\x7bhandleSubmit\x7d style=\x7b\x7b textAlign: 'center', "
      ++ "marginTop: '50px' \x7d\x7d>",
    "      <h2>" ++ name ++ "</h2>",
    "      \x7berror && <p style=\x7b\x7b color: 'red' \x7d\x7d>\x7berror\x7d</p>\x7d",
    "      <input placeholder=\"Username\" value=\x7busername\x7d "
      ++ "onChange=\x7b(e) => setUsername(e.target.value)\x7d />",
    "      <input type=\"password\" placeholder=\"Password\" value=\x7bpassword\x7d "
      ++ "onChange=\x7b(e) => setPassword(e.target.value)\x7d />",
    "      <button type=\"submit\">" ++ name ++ "</button>",
    "    </form>",
    "  );",
    "\x7d",
    "",
    "export default " ++ name ++ ";" ])

/-- The form to log in, which keeps the token it gets. -/
def loginSource : String :=
  formSource "Login"
    [ "      const res = await axiosInstance.post('/auth/login', \x7b username, password \x7d);",
      "      localStorage.setItem('accessToken', res.data.accessToken);",
      "      navigate('/');" ]
    "Login failed"

def registerSource : String :=
  formSource "Register"
    [ "      await axiosInstance.post('/auth/register', \x7b username, password \x7d);",
      "      navigate('/login');" ]
    "Registration failed"

/-- The routes of the client, in place of its start page. -/
def routerElement : String :=
  "\n".intercalate [
    "<Router>",
    "          <div style=\x7b\x7b textAlign: 'center', marginTop: '50px' \x7d\x7d>",
    "            <h1>Welcome</h1>",
    "            <p><a href=\"/login\">Login</a> | <a href=\"/register\">Register</a></p>",
    "          </div>",
    "          <Routes>",
    "            <Route path=\"/login\" element=\x7b<Login />\x7d />",
    "            <Route path=\"/register\" element=\x7b<Register />\x7d />",
    "            <Route path=\"/\" element=\x7b<div style=\x7b\x7b textAlign: 'center', marginTop: '50px' \x7d\x7d><p>Please Login or Register</p></div>\x7d />",
    "          </Routes>",
    "        </Router>" ]

/-- The source files by name. -/
def sources (backend : String) : List (String × String) :=
  [("axiosInstance.js", backendSource backend), ("Login.js", loginSource),
    ("Register.js", registerSource)]

end ServiceCompiler.Scaffold
