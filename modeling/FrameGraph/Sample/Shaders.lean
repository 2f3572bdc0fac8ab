import FrameGraph.FileTree

/-!
# The shaders of the sample frame

Sources and layout documents of the shaders that the sample frame draws with: culling, the geometry
buffer, and lighting.
-/

set_option autoImplicit false

namespace FrameGraph.Sample

/-- The text of these lines. -/
def textOf (lines : List String) : String := String.join (lines.map (· ++ "\n"))

/-- The camera block that the shaders share. -/
def cameraInclude : String := textOf [
  "#ifndef CAMERA_GLSL",
  "#define CAMERA_GLSL",
  "",
  "struct CameraData",
  "\x7b",
  "    mat4 view;",
  "    mat4 proj;",
  "    vec4 position;",
  "\x7d;",
  "",
  "#endif"]

/-- What culling binds. -/
def cullLayout : String := textOf [
  "\x7b",
  "    \"compute\": \x7b",
  "        \"bindings\": [",
  "            \x7b \"slot\": 0, \"resource\": \"buffer\", \"usage\": \"storage\", \"rate\": " ++
    "\"frame\",",
  "              \"elements\": [\x7b \"type\": \"mat4\" \x7d, \x7b \"type\": \"uvec4\" \x7d] \x7d,",
  "            \x7b \"slot\": 1, \"resource\": \"buffer\", \"usage\": \"storage\", \"rate\": " ++
    "\"frame\",",
  "              \"elements\": [\x7b \"type\": \"uint\", \"count\": 5 \x7d] \x7d,",
  "            \x7b \"slot\": 2, \"resource\": \"buffer\", \"usage\": \"uniform\", \"rate\": " ++
    "\"frame\",",
  "              \"elements\": [\x7b \"type\": \"mat4\", \"count\": 2 \x7d, \x7b \"type\": " ++
    "\"vec4\" \x7d] \x7d",
  "        ]",
  "    \x7d",
  "\x7d"]

/-- Marks the instances that are seen. -/
def cullCompute : String := textOf [
  "#version 460",
  "#include \"camera.glsl\"",
  "",
  "layout(local_size_x = 64) in;",
  "",
  "struct Instance",
  "\x7b",
  "    mat4 model;",
  "    uvec4 material;",
  "\x7d;",
  "",
  "struct DrawCommand",
  "\x7b",
  "    uint index_count;",
  "    uint instance_count;",
  "    uint first_index;",
  "    int vertex_offset;",
  "    uint first_instance;",
  "\x7d;",
  "",
  "layout(std430, set = 0, binding = 0) readonly buffer Instances",
  "\x7b",
  "    Instance instances[];",
  "\x7d;",
  "",
  "layout(std430, set = 0, binding = 1) writeonly buffer DrawCommands",
  "\x7b",
  "    DrawCommand draws[];",
  "\x7d;",
  "",
  "layout(set = 0, binding = 2) uniform Camera",
  "\x7b",
  "    CameraData camera;",
  "\x7d;",
  "",
  "void main()",
  "\x7b",
  "    uint id = gl_GlobalInvocationID.x;",
  "    if (id >= instances.length())",
  "    \x7b",
  "        return;",
  "    \x7d",
  "    vec4 center = camera.proj * camera.view * instances[id].model * vec4(0.0, 0.0, 0.0, 1.0);",
  "    bool visible = center.w > 0.0;",
  "    draws[id].instance_count = visible ? 1u : 0u;",
  "    draws[id].first_instance = id;",
  "\x7d"]

/-- What the geometry buffer binds. -/
def gbufferLayout : String := textOf [
  "\x7b",
  "    \"bindings\": [",
  "        \x7b \"slot\": 0, \"resource\": \"buffer\", \"usage\": \"uniform\", \"rate\": " ++
    "\"frame\",",
  "          \"elements\": [\x7b \"type\": \"mat4\", \"count\": 2 \x7d, \x7b \"type\": \"vec4\" " ++
    "\x7d] \x7d",
  "    ],",
  "    \"vertex\": \x7b",
  "        \"bindings\": [",
  "            \x7b \"slot\": 1, \"resource\": \"buffer\", \"usage\": \"storage\", \"rate\": " ++
    "\"pass\",",
  "              \"elements\": [\x7b \"type\": \"mat4\" \x7d, \x7b \"type\": \"uvec4\" \x7d] \x7d",
  "        ]",
  "    \x7d,",
  "    \"fragment\": \x7b",
  "        \"bindings\": [",
  "            \x7b \"slot\": 2, \"resource\": \"image\", \"usage\": \"combined\", \"rate\": " ++
    "\"draw\", \"type\": \"2d\" \x7d",
  "        ]",
  "    \x7d",
  "\x7d"]

/-- Places the instances. -/
def gbufferVertex : String := textOf [
  "#version 460",
  "#include \"camera.glsl\"",
  "",
  "layout(location = 0) in vec3 in_position;",
  "layout(location = 1) in vec3 in_normal;",
  "layout(location = 2) in vec2 in_uv;",
  "",
  "layout(set = 0, binding = 0) uniform Camera",
  "\x7b",
  "    CameraData camera;",
  "\x7d;",
  "",
  "struct Instance",
  "\x7b",
  "    mat4 model;",
  "    uvec4 material;",
  "\x7d;",
  "",
  "layout(std430, set = 0, binding = 1) readonly buffer Instances",
  "\x7b",
  "    Instance instances[];",
  "\x7d;",
  "",
  "layout(location = 0) out vec3 out_normal;",
  "layout(location = 1) out vec2 out_uv;",
  "",
  "void main()",
  "\x7b",
  "    Instance instance = instances[gl_InstanceIndex];",
  "    out_normal = mat3(instance.model) * in_normal;",
  "    out_uv = in_uv;",
  "    gl_Position = camera.proj * camera.view * instance.model * vec4(in_position, 1.0);",
  "\x7d"]

/-- Writes color and normal. -/
def gbufferFragment : String := textOf [
  "#version 460",
  "",
  "layout(set = 0, binding = 2) uniform sampler2D base_color;",
  "",
  "layout(location = 0) in vec3 in_normal;",
  "layout(location = 1) in vec2 in_uv;",
  "",
  "layout(location = 0) out vec4 out_albedo;",
  "layout(location = 1) out vec4 out_normal;",
  "",
  "void main()",
  "\x7b",
  "    out_albedo = texture(base_color, in_uv);",
  "    out_normal = vec4(normalize(in_normal) * 0.5 + 0.5, 1.0);",
  "\x7d"]

/-- What lighting binds. -/
def lightingLayout : String := textOf [
  "\x7b",
  "    \"bindings\": [],",
  "    \"fragment\": \x7b",
  "        \"bindings\": [",
  "            \x7b \"slot\": 0, \"resource\": \"buffer\", \"usage\": \"uniform\", \"rate\": " ++
    "\"frame\",",
  "              \"elements\": [\x7b \"type\": \"mat4\", \"count\": 2 \x7d, \x7b \"type\": " ++
    "\"vec4\" \x7d] \x7d,",
  "            \x7b \"slot\": 1, \"resource\": \"image\", \"usage\": \"combined\", \"type\": " ++
    "\"2d\" \x7d,",
  "            \x7b \"slot\": 2, \"resource\": \"image\", \"usage\": \"combined\", \"type\": " ++
    "\"2d\" \x7d,",
  "            \x7b \"slot\": 3, \"resource\": \"image\", \"usage\": \"combined\", \"type\": " ++
    "\"2d\" \x7d,",
  "            \x7b \"slot\": 4, \"resource\": \"buffer\", \"usage\": \"storage\", \"rate\": " ++
    "\"frame\",",
  "              \"elements\": [\x7b \"type\": \"vec4\", \"count\": 2 \x7d] \x7d",
  "        ]",
  "    \x7d",
  "\x7d"]

/-- Covers the screen. -/
def lightingVertex : String := textOf [
  "#version 460",
  "",
  "layout(location = 0) out vec2 out_uv;",
  "",
  "void main()",
  "\x7b",
  "    out_uv = vec2((gl_VertexIndex << 1) & 2, gl_VertexIndex & 2);",
  "    gl_Position = vec4(out_uv * 2.0 - 1.0, 0.0, 1.0);",
  "\x7d"]

/-- Adds up the lights. -/
def lightingFragment : String := textOf [
  "#version 460",
  "#include \"camera.glsl\"",
  "",
  "layout(set = 0, binding = 0) uniform Camera",
  "\x7b",
  "    CameraData camera;",
  "\x7d;",
  "",
  "layout(set = 0, binding = 1) uniform sampler2D albedo;",
  "layout(set = 0, binding = 2) uniform sampler2D normal;",
  "layout(set = 0, binding = 3) uniform sampler2D depth;",
  "",
  "struct PointLight",
  "\x7b",
  "    vec4 position_radius;",
  "    vec4 color;",
  "\x7d;",
  "",
  "layout(std430, set = 0, binding = 4) readonly buffer Lights",
  "\x7b",
  "    PointLight lights[];",
  "\x7d;",
  "",
  "layout(location = 0) in vec2 in_uv;",
  "layout(location = 0) out vec4 out_color;",
  "",
  "void main()",
  "\x7b",
  "    vec3 base = texture(albedo, in_uv).rgb;",
  "    vec3 n = texture(normal, in_uv).xyz * 2.0 - 1.0;",
  "    float d = texture(depth, in_uv).r;",
  "",
  "    vec3 color = base * 0.05;",
  "    for (uint i = 0; i < lights.length(); ++i)",
  "    \x7b",
  "        vec3 to_light = lights[i].position_radius.xyz - camera.position.xyz;",
  "        float atten = clamp(1.0 - length(to_light) / lights[i].position_radius.w, 0.0, 1.0);",
  "        color += base * lights[i].color.rgb * max(dot(n, normalize(to_light)), 0.0) * atten " ++
    "* (1.0 - d);",
  "    \x7d",
  "    out_color = vec4(color, 1.0);",
  "\x7d"]

/-- The files of the sample frame, by their paths below the shader directory. -/
def shaderFiles : List (String × String) := [
  ("include/camera.glsl", cameraInclude),
  ("deferred/cull.json", cullLayout),
  ("deferred/cull.comp", cullCompute),
  ("deferred/gbuffer.json", gbufferLayout),
  ("deferred/gbuffer.vert", gbufferVertex),
  ("deferred/gbuffer.frag", gbufferFragment),
  ("deferred/lighting.json", lightingLayout),
  ("deferred/lighting.vert", lightingVertex),
  ("deferred/lighting.frag", lightingFragment)]

/-- The tree with the files of the sample frame in a directory. -/
def install (files : FileTree) (dir : String) : FileTree :=
  shaderFiles.foldl (fun t (path, text) => t.insert (joinPath dir path) (.file text.toUTF8.toList))
    files

end FrameGraph.Sample
